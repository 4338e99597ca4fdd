import Mathlib
import GroundPlane.Grid.Fragment
import GroundPlane.Proofs.RoundingOrder

/-!
# The pattern masks what is undefined

In single precision, the extent of a pixel on the ground may be zero, infinite or NaN, and so may be
the distances from the lines that are divided by it. But none of them carries a minus sign, and the
smaller of a distance and one is a number, so that the alpha of a pattern is always a share
(`pattern_masks_undefined`).
-/

namespace GroundPlane

open Float.Model Float.Model.UnpackedFloat

/-! ## Signs -/

namespace Rounding

open SinglePrecision

variable {format : Format} {a b : UnpackedFloat}

/-- NaN, or a number of positive sign. -/
def IsUnsigned : UnpackedFloat → Prop
  | .notANumber => True
  | .infinity s | .zero s | .finite s _ _ _ => s = .positive

theorem isUnsigned_abs (u : UnpackedFloat) : IsUnsigned u.abs := by
  cases u <;> trivial

theorem isUnsigned_ofMantissa (m : Nat) (e : Int) : IsUnsigned (ofMantissa .positive m e) := by
  unfold ofMantissa
  split <;> rfl

theorem isUnsigned_roundWithAccuracy (m : Nat) (e : Int) (accuracy : Accuracy) :
    IsUnsigned (roundWithAccuracy format .positive m e accuracy) :=
  isUnsigned_ofMantissa _ _

theorem isUnsigned_normalize {n : Int} (nonneg : 0 ≤ n) (e : Int) :
    IsUnsigned (UnpackedFloat.normalize format n e .positive) := by
  unfold UnpackedFloat.normalize
  split
  next negative => exact absurd nonneg (not_le.2 (Int.compare_eq_lt.1 negative))
  next => rfl
  next => exact isUnsigned_roundWithAccuracy _ _ _

theorem IsUnsigned.add (ha : IsUnsigned a) (hb : IsUnsigned b) :
    IsUnsigned (UnpackedFloat.add format a b) := by
  cases a with
  | notANumber => trivial
  | infinity s =>
    cases ha
    cases b with
    | infinity t => cases hb; rfl
    | notANumber | zero | finite => trivial
  | zero s =>
    cases ha
    cases b with
    | zero t => cases hb; rfl
    | notANumber | infinity | finite => exact hb
  | finite s m e positive =>
    cases ha
    cases b with
    | notANumber | infinity => exact hb
    | zero => rfl
    | finite t n d positive' =>
      cases hb
      exact isUnsigned_normalize (Int.natCast_nonneg _) _

theorem IsUnsigned.div (ha : IsUnsigned a) (hb : IsUnsigned b) :
    IsUnsigned (UnpackedFloat.div format a b) := by
  cases a with
  | notANumber => trivial
  | infinity s | zero s =>
    cases ha
    cases b with
    | notANumber => trivial
    | infinity t | zero t | finite t => cases hb; trivial
  | finite s m e positive =>
    cases ha
    cases b with
    | notANumber => trivial
    | infinity t | zero t => cases hb; trivial
    | finite t n d positive' =>
      cases hb
      exact isUnsigned_roundWithAccuracy _ _ _

theorem IsUnsigned.unpack_pack (h : IsUnsigned a) :
    IsUnsigned (UnpackedFloat.unpack .binary32 (UnpackedFloat.pack .binary32 a)) := by
  cases a with
  | notANumber => trivial
  | infinity s => rwa [unpack_pack_infinity]
  | zero s => rwa [unpack_pack_zero]
  | finite s m e positive =>
    cases h
    rcases unpack_pack_sign .positive positive with ⟨n, d, finite⟩ | infinite
    · rw [finite]
      exact isUnsigned_ofMantissa n d
    · rw [infinite]
      rfl

theorem IsUnsigned.rank_nonneg (h : IsUnsigned a) : 0 ≤ rank a := by
  change toLex (0, toLex (0, 0)) ≤ rank a
  cases a with
  | notANumber | zero => exact le_rfl
  | infinity s | finite s =>
    cases h
    simp [rank, Prod.Lex.toLex_le_toLex]

end Rounding

namespace SinglePrecision

open Rounding

variable {x y : Float32}

/-- NaN, or a number of positive sign. -/
def Unsigned (x : Float32) : Prop :=
  IsUnsigned x.toModel.unpack

theorem unsigned_abs (x : Float32) : Unsigned x.abs := by
  unfold Unsigned
  rw [unpack_abs]
  exact isUnsigned_abs _

namespace Unsigned

theorem add (hx : Unsigned x) (hy : Unsigned y) : Unsigned (x + y) :=
  (IsUnsigned.add hx hy).unpack_pack

theorem div (hx : Unsigned x) (hy : Unsigned y) : Unsigned (x / y) :=
  (IsUnsigned.div hx hy).unpack_pack

theorem lesser (hx : Unsigned x) (hy : Unsigned y) : Unsigned (Scalar.lesser x y) := by
  change Unsigned (if y.isNaN then x else if x < y then x else y)
  split
  next => exact hx
  next =>
    split
    next => exact hx
    next => exact hy

theorem nonneg (hx : Unsigned x) (number : x.isNaN = false) : 0 ≤ x :=
  le_iff.2 ⟨rfl, number, IsUnsigned.rank_nonneg hx⟩

/-- NaN is not less than one. -/
theorem lesser_one_mem (hx : Unsigned x) : 0 ≤ Scalar.lesser x 1 ∧ Scalar.lesser x 1 ≤ 1 := by
  change 0 ≤ (if x < 1 then x else 1) ∧ (if x < 1 then x else 1) ≤ 1
  split
  next less => exact ⟨hx.nonneg (lt_iff.1 less).1, SinglePrecision.le_of_lt less⟩
  next => decide +kernel

end Unsigned

theorem one_sub_mem (lower : 0 ≤ x) (upper : x ≤ 1) : 0 ≤ 1 - x ∧ 1 - x ≤ 1 := by
  have finite : x.isFinite := isFinite_of_mem rfl rfl lower upper
  have share := toRat_nonneg finite lower
  have whole := toRat_le finite rfl upper
  have rounded := isRounded_sub (x := 1) rfl finite
  exact ⟨(isRounded_toRat rfl).le rounded (sub_nonneg.2 whole),
    rounded.le (isRounded_toRat rfl) (sub_le_self _ share)⟩

theorem add_mem_range {a b c : Float32} (ha : a.isFinite) (hb : b.isFinite) (hc : c.isFinite)
    (sum : toRat a + toRat b = toRat c) (hx : 0 ≤ x ∧ x ≤ a) (hy : 0 ≤ y ∧ y ≤ b) :
    0 ≤ x + y ∧ x + y ≤ c := by
  have hx' : x.isFinite := isFinite_of_mem rfl ha hx.1 hx.2
  have hy' : y.isFinite := isFinite_of_mem rfl hb hy.1 hy.2
  have rounded := isRounded_add hx' hy'
  constructor
  · exact (isRounded_toRat rfl).le rounded
      (add_nonneg (toRat_nonneg hx' hx.1) (toRat_nonneg hy' hy.1))
  · apply rounded.le (isRounded_toRat hc)
    rw [← sum]
    exact add_le_add (toRat_le hx' ha hx.2) (toRat_le hy' hb hy.2)

end SinglePrecision

open SinglePrecision

namespace Grid

theorem unsigned_lineDistances (coords : Patch (Vec2 Float32)) :
    Unsigned (lineDistances coords.here coords.width).x ∧
    Unsigned (lineDistances coords.here coords.width).y :=
  ⟨(unsigned_abs _).div ((unsigned_abs _).add (unsigned_abs _)),
    (unsigned_abs _).div ((unsigned_abs _).add (unsigned_abs _))⟩

theorem pattern_alpha_mem (positions : Patch (Vec3 Float32)) (scale : Float32)
    (style : Style Float32) :
    0 ≤ (pattern positions scale style).w ∧ (pattern positions scale style).w ≤ 1 := by
  obtain ⟨x, z⟩ :=
    unsigned_lineDistances (positions.map fun p => (⟨p.x, p.z⟩ : Vec2 Float32) * scale)
  obtain ⟨nonneg, le_one⟩ := (x.lesser z).lesser_one_mem
  exact one_sub_mem nonneg le_one

theorem patterns_alpha_mem (positions : Patch (Vec3 Float32)) (style : Style Float32) :
    0 ≤ (patterns positions style).w ∧ (patterns positions style).w ≤ 2.0 := by
  have fine := pattern_alpha_mem positions style.fine style
  have coarse := pattern_alpha_mem positions style.coarse style
  have start : 0 ≤ (0 : Float32) ∧ (0 : Float32) ≤ 0 := by decide +kernel
  have one : toRat 0 + toRat 1 = toRat 1 := by rw [toRat_zero, zero_add]
  have first := add_mem_range rfl rfl rfl one start fine
  have two : toRat 1 + toRat 1 = toRat 2.0 := by
    rw [toRat_one, toRat_two]
    norm_num
  exact add_mem_range rfl rfl rfl two first coarse

/-- For any positions, scale and style, the alpha of a pattern is a number from 0 to 1, and each
channel is the line color's own or 1. So the alpha of both patterns together, which the fragment
stage fades, is a number from 0 to 2. -/
theorem pattern_masks_undefined (positions : Patch (Vec3 Float32)) (style : Style Float32) :
    (∀ scale : Float32,
      let color := pattern positions scale style
      (color.w.isNaN = false ∧ 0 ≤ color.w ∧ color.w ≤ 1) ∧
        (color.x = style.lineColor.x ∨ color.x = 1) ∧ (color.y = style.lineColor.y ∨ color.y = 1) ∧
        (color.z = style.lineColor.z ∨ color.z = 1)) ∧
    let color := patterns positions style
    color.w.isNaN = false ∧ 0 ≤ color.w ∧ color.w ≤ 2.0 := by
  refine ⟨fun scale => ?_, ?_⟩
  · obtain ⟨nonneg, le_one⟩ := pattern_alpha_mem positions scale style
    exact ⟨⟨(isNaN_of_le nonneg).2, nonneg, le_one⟩, (ite_eq_or_eq _ _ _).symm, .inl rfl,
      (ite_eq_or_eq _ _ _).symm⟩
  · obtain ⟨nonneg, le_two⟩ := patterns_alpha_mem positions style
    exact ⟨(isNaN_of_le nonneg).2, nonneg, le_two⟩

end Grid

end GroundPlane
