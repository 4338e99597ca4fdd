import Mathlib
import GroundPlane.Scalar.Single
import GroundPlane.Proofs.Rounding

/-!
# The range of sine and cosine in single precision

The sine and the cosine of a finite angle are finite (`sin_atMost`, `cos_atMost`). The bounds are
crude: a reduced angle is only shown to be at most `2 ^ 10`, which the polynomials take to `2 ^ 67`
at most, well inside the range of single precision.
-/

namespace GroundPlane.Sine

open Rounding
open Float.Model.UnpackedFloat

theorem sinePolynomial_atMost {x : Float} (hx : DoubleAtMost 10 x) :
    DoubleAtMost 67 (sinePolynomial x) := by
  have s1 : DoubleAtMost (-2) (Float.ofBits 0xbfc555545995a603) := by decide
  have s2 : DoubleAtMost (-6) (Float.ofBits 0x3f81107605230bc4) := by decide
  have s3 : DoubleAtMost (-12) (Float.ofBits 0xbf2994eb3774cf24) := by decide
  have x2 := hx.mul hx (by decide)
  have x3 := hx.mul x2 (by decide)
  have low := hx.add (x3.mul s1 (by decide)) (by decide)
  have high := (x3.mul x2 (by decide)).mul (s2.add (x2.mul s3 (by decide)) (by decide)) (by decide)
  exact (low.add high (by decide)).mono (by decide)

theorem cosinePolynomial_atMost {x : Float} (hx : DoubleAtMost 10 x) :
    DoubleAtMost 67 (cosinePolynomial x) := by
  have one : DoubleAtMost 0 1.0 := by decide
  have c1 : DoubleAtMost (-1) (Float.ofBits 0xbfdffffffd0c621c) := by decide
  have c2 : DoubleAtMost (-4) (Float.ofBits 0x3fa55553e1068f19) := by decide
  have c3 : DoubleAtMost (-9) (Float.ofBits 0xbf56c087e89a359d) := by decide
  have c4 : DoubleAtMost (-15) (Float.ofBits 0x3ef99343027bf8c3) := by decide
  have x2 := hx.mul hx (by decide)
  have x4 := x2.mul x2 (by decide)
  have low := (one.add (x2.mul c1 (by decide)) (by decide)).add (x4.mul c2 (by decide)) (by decide)
  have high := (x4.mul x2 (by decide)).mul (c3.add (x2.mul c4 (by decide)) (by decide)) (by decide)
  exact (low.add high (by decide)).mono (by decide)

theorem Reduced.sin_atMost {r : Reduced} (h : DoubleAtMost 10 r.remainder) :
    DoubleAtMost 67 r.sin := by
  unfold Reduced.sin
  split
  · exact sinePolynomial_atMost h
  · exact cosinePolynomial_atMost h
  · exact sinePolynomial_atMost (h.neg (by decide))
  · exact (cosinePolynomial_atMost h).neg (by decide)

theorem Reduced.cos_atMost {r : Reduced} (h : DoubleAtMost 10 r.remainder) :
    DoubleAtMost 67 r.cos :=
  sin_atMost h

theorem reduceModerate_atMost {x : Float} (hx : DoubleAtMost 7 x) :
    DoubleAtMost 10 (reduceModerate x).remainder := by
  have rate : DoubleAtMost 24 quarterTurnsPerRadian := by decide
  have turn : DoubleAtMost 1 quarterTurn := by decide
  have scaled : (Rounding.truncate (x * quarterTurnsPerRadian)).natAbs ≤ 2 ^ 31 :=
    truncate_natAbs_le (k := 31) (hx.mul rate (by decide))
  have turns : ((Rounding.truncate (x * quarterTurnsPerRadian) + 0x800000) / 0x1000000).natAbs ≤
      2 ^ 8 := by omega
  have whole := (ofInt_atMost turns (by decide)).mul turn (by decide)
  exact (hx.sub whole (by decide)).mono (by decide)

theorem reduceLarge_atMost (bits : UInt32) : DoubleAtMost 10 (reduceLarge bits).remainder := by
  have unit : DoubleAtMost (-61) (Float.ofBits 0x3c1921fb54442d18) := by decide
  have rest (product : Int) : (product.bmod UInt64.size).natAbs ≤ 2 ^ 63 := by
    have lower := Int.le_bmod (x := product) (m := UInt64.size) (by decide)
    have upper := Int.bmod_lt (x := product) (m := UInt64.size) (by decide)
    have size : (UInt64.size : Int) = 2 ^ 64 := rfl
    omega
  exact ((ofInt_atMost (rest _) (by decide)).mul unit (by decide)).mono (by decide)

/-- The leading eight bits of a scale are the exponent. -/
theorem scale_div (x : Float32) :
    scale x / 8 = (@unpackExponent .binary32 x.toModel.toBits.toBitVec).toNat := by
  have exponent :
      (@unpackExponent .binary32 x.toModel.toBits.toBitVec).toNat =
        x.toBits.toNat / 2 ^ 23 % 2 ^ 8 :=
    toNat_unpackExponent _
  rw [exponent, scale, Nat.shiftRight_eq_div_pow]
  omega

theorem singleAtMost_of_scale {x : Float32} {n : Nat} (h : scale x < 8 * n) (range : n < 256) :
    SingleAtMost (n - 127) x := by
  have exponent := scale_div x
  exact unpack_bounded (n := n) (by omega) range

theorem scale_lt_of_isFinite {x : Float32} (finite : x.isFinite) : scale x < 0x7f8 := by
  have exponent : (@unpackExponent .binary32 x.toModel.toBits.toBitVec).toNat < 255 :=
    unpackExponent_lt_of_isFinite finite
  rw [← scale_div] at exponent
  omega

/-- What is known of a finite angle in each range. -/
theorem Range.of_cases {x : Float32} (finite : x.isFinite) :
    (Range.of x = .tiny ∧ SingleAtMost (-12) x) ∨ (Range.of x = .small ∧ SingleAtMost 0 x) ∨
      (Range.of x = .moderate ∧ SingleAtMost 7 x) ∨ Range.of x = .large := by
  have bounded := scale_lt_of_isFinite finite
  simp only [Range.of]
  split
  next small => exact .inl ⟨rfl, singleAtMost_of_scale (n := 115) small (by decide)⟩
  next =>
    split
    next small => exact .inr (.inl ⟨rfl, singleAtMost_of_scale (n := 127) (by omega) (by decide)⟩)
    next =>
      split
      next small =>
        exact .inr (.inr (.inl ⟨rfl, singleAtMost_of_scale (n := 134) (by omega) (by decide)⟩))
      next => exact .inr (.inr (.inr rfl))

theorem sin_atMost {x : Float32} (finite : x.isFinite) : SingleAtMost 67 (sin x) := by
  unfold sin
  obtain ⟨range, hx⟩ | ⟨range, hx⟩ | ⟨range, hx⟩ | range := Range.of_cases finite
  · rw [range]
    exact hx.mono (by decide)
  · rw [range]
    have angle : DoubleAtMost 10 (widen x) := (widen_atMost hx (by decide)).mono (by decide)
    exact narrow_atMost (sinePolynomial_atMost angle) (by decide)
  · rw [range]
    exact narrow_atMost (Reduced.sin_atMost (reduceModerate_atMost (widen_atMost hx (by decide))))
      (by decide)
  · rw [range]
    have magnitude := Reduced.sin_atMost (reduceLarge_atMost x.toBits)
    refine narrow_atMost ?_ (by decide)
    split
    · exact magnitude.neg (by decide)
    · exact magnitude

theorem cos_atMost {x : Float32} (finite : x.isFinite) : SingleAtMost 67 (cos x) := by
  unfold cos
  obtain ⟨range, hx⟩ | ⟨range, hx⟩ | ⟨range, hx⟩ | range := Range.of_cases finite
  · rw [range]
    have one : SingleAtMost 0 1 := by decide
    exact one.mono (by decide)
  · rw [range]
    have angle : DoubleAtMost 10 (widen x) := (widen_atMost hx (by decide)).mono (by decide)
    exact narrow_atMost (cosinePolynomial_atMost angle) (by decide)
  · rw [range]
    exact narrow_atMost (Reduced.cos_atMost (reduceModerate_atMost (widen_atMost hx (by decide))))
      (by decide)
  · rw [range]
    exact narrow_atMost (Reduced.cos_atMost (reduceLarge_atMost x.toBits)) (by decide)

end GroundPlane.Sine
