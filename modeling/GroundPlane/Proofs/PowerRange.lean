import Mathlib
import GroundPlane.Scalar.Single
import GroundPlane.Proofs.Rounding
import GroundPlane.Proofs.SingleOrder

/-!
# Powers in single precision are defined

A power of a positive finite number is a number, whatever the exponent (`isNaN_pow`). As for sine
and cosine, the bounds are crude but for one place: the exponential adds up the bits of its scale,
and it takes the exact sum to see that they do not spell an infinity.
-/

namespace GroundPlane.Rounding

open Float.Model
open Float.Model.UnpackedFloat (packComponents)

variable {format : Format}

/-! ## Rounding to a known place -/

/-- A number between two numbers of full length with the same last place is rounded to one between
them. -/
theorem exists_round_mem (s : UnpackedFloat.Sign) {m lo hi k : Nat} {e : Int}
    (least : format.minExponent ≤ e + k) (full : 2 ^ format.mantissaBitsWithoutImplicit ≤ lo)
    (long : hi < 2 ^ (format.mantissaBitsWithoutImplicit + 1)) (lower : lo * 2 ^ k ≤ m)
    (upper : m ≤ hi * 2 ^ k) :
    ∃ r positive, lo ≤ r ∧ r ≤ hi ∧
    UnpackedFloat.round format s m e = .finite s r (e + k) positive := by
  have leading := Nat.two_pow_pos format.mantissaBitsWithoutImplicit
  have power := Nat.two_pow_pos k
  have nonzero : m ≠ 0 := (Nat.lt_of_lt_of_le (Nat.mul_pos (leading.trans_le full) power) lower).ne'
  have log : m.log2 = format.mantissaBitsWithoutImplicit + k := by
    rw [Nat.log2_eq_iff nonzero, Nat.pow_add, Nat.add_right_comm, Nat.pow_add]
    exact ⟨(Nat.mul_le_mul_right _ full).trans lower,
      upper.trans_lt (Nat.mul_lt_mul_of_pos_right long power)⟩
  have place : lastPlace format m e = e + k := by
    rw [lastPlace_eq]
    omega
  obtain ⟨r, kept, up, -, rounded⟩ := exists_rounded format s (m := m) (e := e) (by omega)
  rw [place, show (e + k - e).toNat = k by omega] at kept up
  have low : lo ≤ r := ((Nat.le_div_iff_mul_le power).2 lower).trans kept
  have log' : r.log2 = format.mantissaBitsWithoutImplicit :=
    (Nat.log2_eq_iff (by omega)).2 ⟨full.trans low, (up hi upper).trans_lt long⟩
  -- the carry, if any, stays within the length of `hi`
  have settled : lastPlace format r (e + k) = e + k := by
    rw [lastPlace_eq]
    omega
  rw [place, settled, Int.sub_self, Int.toNat_zero, Nat.pow_zero, Nat.div_one,
    ofMantissa_of_pos (show 0 < r by omega)] at rounded
  refine ⟨r, by omega, low, up hi upper, ?_⟩
  rw [round_eq, place, min_eq_left (by omega), Int.sub_self]
  exact rounded

theorem toNat_packComponents (exponent : BitVec format.exponentBits)
    (mantissa : BitVec format.mantissaBitsWithoutImplicit) :
    (packComponents format .positive exponent mantissa).toNat =
      exponent.toNat * 2 ^ format.mantissaBitsWithoutImplicit + mantissa.toNat := by
  unfold packComponents
  rw [BitVec.toNat_append, ← Nat.shiftLeft_add_eq_or_of_lt mantissa.isLt, Nat.shiftLeft_eq,
    BitVec.toNat_append]
  simp [UnpackedFloat.Sign.toBitVec]

/-- Bits of a positive number of full length. -/
theorem toNat_pack_double {m : Nat} {e : Int} (positive : 0 < m) (full : 2 ^ 52 ≤ m)
    (long : m < 2 ^ 53) (least : -1074 ≤ e) (range : e ≤ 971) :
    (UnpackedFloat.pack .binary64 (.finite .positive m e positive)).toNat =
      (e + 1074).toNat * 2 ^ 52 + m := by
  have log : m.log2 = 52 := (Nat.log2_eq_iff positive.ne').2 ⟨full, long⟩
  rw [pack_finite positive (show (e + 1023 + 52).toNat + 1 < 2 ^ 11 by omega), if_pos log,
    toNat_packComponents, BitVec.toNat_ofNat, BitVec.toNat_ofNat]
  change (e + 1023 + 52).toNat % 2 ^ 11 * 2 ^ 52 + m % 2 ^ 52 = _
  omega

/-! ## Adding a large constant -/

theorem normalize_of_pos {n : Int} (positive : 0 < n) (e : Int) (z : UnpackedFloat.Sign) :
    UnpackedFloat.normalize format n e z = UnpackedFloat.round format .positive n.toNat e := by
  unfold UnpackedFloat.normalize
  rw [Int.compare_eq_gt.2 positive]

theorem natCast_apply_mem (s : UnpackedFloat.Sign) (n : Nat) :
    -(n : Int) ≤ s.apply n ∧ s.apply n ≤ n := by
  have magnitude := natAbs_apply s n
  omega

/-- A number of up to `2 ^ 8` moves `3 · 2 ^ 46` by that many places of `2 ^ -5`. -/
theorem add_large {u : UnpackedFloat} (bounded : Bounded .binary64 8 u) :
    ∃ r positive, 3 * 2 ^ 51 - 2 ^ 13 ≤ r ∧ r ≤ 3 * 2 ^ 51 + 2 ^ 13 ∧
      UnpackedFloat.add .binary64 u (.finite .positive (3 * 2 ^ 51) (-5) (by decide)) =
        .finite .positive r (-5) positive := by
  cases u with
  | infinity => exact bounded.elim
  | notANumber => exact bounded.elim
  | zero s => exact ⟨_, _, by decide, by decide, rfl⟩
  | finite s m e positive =>
    obtain ⟨place, bound⟩ := bounded.2.shiftLeft (min_le_left e (-5))
    have units : (8 - min e (-5)).toNat = 13 + (-5 - min e (-5)).toNat := by omega
    rw [units, Nat.pow_add] at bound
    have sum :
        UnpackedFloat.add .binary64 (.finite s m e positive)
          (.finite .positive (3 * 2 ^ 51) (-5) (by decide)) =
        .normalize .binary64 (s.apply ↑(m <<< (e - min e (-5)).toNat) +
          ↑((3 * 2 ^ 51) <<< (-5 - min e (-5)).toNat)) (min e (-5)) .positive := rfl
    obtain ⟨down, up⟩ := natCast_apply_mem s (m <<< (e - min e (-5)).toNat)
    have power := Nat.two_pow_pos (-5 - min e (-5)).toNat
    have back : min e (-5) + (-5 - min e (-5)).toNat = -5 := by omega
    rw [sum, Nat.shiftLeft_eq (3 * 2 ^ 51)]
    generalize s.apply ↑(m <<< (e - min e (-5)).toNat) = moved at *
    generalize (-5 - min e (-5)).toNat = k at *
    generalize m <<< (e - min e (-5)).toNat = a at *
    have large : 0 < moved + ((3 * 2 ^ 51 * 2 ^ k : Nat) : Int) := by omega
    have least : Format.binary64.minExponent ≤ min e (-5) + k := by
      rw [back]
      decide
    have lower :
        (3 * 2 ^ 51 - 2 ^ 13) * 2 ^ k ≤ (moved + ((3 * 2 ^ 51 * 2 ^ k : Nat) : Int)).toNat := by
          omega
    have upper :
        (moved + ((3 * 2 ^ 51 * 2 ^ k : Nat) : Int)).toNat ≤ (3 * 2 ^ 51 + 2 ^ 13) * 2 ^ k := by
          omega
    obtain ⟨r, positive, low, high, rounded⟩ :=
      exists_round_mem .positive least (by decide) (by decide) lower upper
    rw [back] at rounded
    exact ⟨r, positive, low, high, (normalize_of_pos large _ _).trans rounded⟩

end GroundPlane.Rounding

namespace GroundPlane.Power

open Float.Model Rounding SinglePrecision
open Float.Model.UnpackedFloat (unpackExponent)

/-! ## Bits -/

theorem ofBits_singleAtMost {b : UInt32} {n : Nat} (h : b.toNat / 2 ^ 23 % 2 ^ 8 < n)
    (range : n < 255) : SingleAtMost (n - 127) (Float32.ofBits b) := by
  have exponent : (@unpackExponent .binary32 b.toBitVec).toNat < n :=
    (toNat_unpackExponent _).trans_lt h
  exact (unpack_bounded exponent (show n < 2 ^ 8 by omega)).single
    (show (n : Int) - 127 ≤ 127 by omega)

theorem ofBits_doubleAtMost {b : UInt64} {n : Nat} (h : b.toNat / 2 ^ 52 % 2 ^ 11 < n)
    (range : n < 2047) : DoubleAtMost (n - 1023) (Float.ofBits b) := by
  have exponent : (@unpackExponent .binary64 b.toBitVec).toNat < n :=
    (toNat_unpackExponent _).trans_lt h
  exact (unpack_bounded exponent (show n < 2 ^ 11 by omega)).double
    (show (n : Int) - 1023 ≤ 1023 by omega)

/-! ## The logarithm -/

theorem logTable_atMost (i : Nat) :
    DoubleAtMost 1 (Float.ofBits (logTable.getD (i % 16) (0, 0)).1) ∧
      DoubleAtMost 0 (Float.ofBits (logTable.getD (i % 16) (0, 0)).2) := by
  have entries : ∀ j : Fin 16, DoubleAtMost 1 (Float.ofBits (logTable.getD j (0, 0)).1) ∧
      DoubleAtMost 0 (Float.ofBits (logTable.getD j (0, 0)).2) := by decide
  exact entries ⟨i % 16, Nat.mod_lt i (by decide)⟩

theorem normalisedBits_mem (x : Float32) :
    -2 ^ 28 ≤ normalisedBits x ∧ normalisedBits x < 2 ^ 32 := by
  have word (b : UInt32) : (b.toNat : Int) < 2 ^ 32 := by exact_mod_cast b.toNat_lt
  unfold normalisedBits
  split
  · have := word (x * 8388608.0).toBits
    omega
  · have := word x.toBits
    omega

/-- The exponent is split off so that the rest is about one. -/
theorem log2_atMost {bits : Int} (lower : -2 ^ 28 ≤ bits) (upper : bits < 2 ^ 32) :
    DoubleAtMost 20 (log2 bits) := by
  have whole : ((bits - 0x3f330000) / 0x800000).natAbs ≤ 2 ^ 9 := by omega
  have rest : SingleAtMost 1 (Float32.ofBits (UInt32.ofNat
      (bits - (bits - 0x3f330000) / 0x800000 * 0x800000).toNat)) := by
    refine ofBits_singleAtMost (n := 128) ?_ (by decide)
    rw [UInt32.toNat_ofNat']
    omega
  have index :
      ((bits - 0x3f330000) / 0x80000 % 16).toNat =
        ((bits - 0x3f330000) / 0x80000 % 16).toNat % 16 := by
    omega
  obtain ⟨reciprocal, logarithm⟩ := logTable_atMost ((bits - 0x3f330000) / 0x80000 % 16).toNat
  rw [← index] at reciprocal logarithm
  have one : DoubleAtMost 0 1 := by decide
  have r := ((widen_atMost rest (by decide)).mul reciprocal (by decide)).sub one (by decide)
  have y0 := logarithm.add (ofInt_atMost whole (by decide)) (by decide)
  have r2 := r.mul r (by decide)
  have a0 : DoubleAtMost 0 (Float.ofBits 0x3fd27616c9496e0b) := by decide
  have a1 : DoubleAtMost 0 (Float.ofBits 0xbfd71969a075c67a) := by decide
  have a2 : DoubleAtMost 0 (Float.ofBits 0x3fdec70a6ca7badd) := by decide
  have a3 : DoubleAtMost 0 (Float.ofBits 0xbfe7154748bef6c8) := by decide
  have a4 : DoubleAtMost 1 (Float.ofBits 0x3ff71547652ab82b) := by decide
  have low := (a4.mul r (by decide)).add y0 (by decide)
  have middle := ((a2.mul r (by decide)).add a3 (by decide)).mul r2 (by decide)
  have high := ((a0.mul r (by decide)).add a1 (by decide)).mul (r2.mul r2 (by decide)) (by decide)
  exact (high.add (middle.add low (by decide)) (by decide)).mono (by decide)

/-! ## The exponential -/

theorem shifted_mem {x : Float} (hx : DoubleAtMost 8 x) :
    0x42e8000000000000 - 2 ^ 13 ≤ (x + Float.ofBits 0x42e8000000000000).toBits.toNat ∧
      (x + Float.ofBits 0x42e8000000000000).toBits.toNat ≤ 0x42e8000000000000 + 2 ^ 13 := by
  have shifter : (Float.ofBits 0x42e8000000000000).toModel.unpack =
    .finite .positive (3 * 2 ^ 51) (-5) (by decide) := rfl
  obtain ⟨r, positive, low, high, sum⟩ := add_large hx
  have bits : (x + Float.ofBits 0x42e8000000000000).toBits.toNat = (UnpackedFloat.pack .binary64
    (.add .binary64 x.toModel.unpack (Float.ofBits 0x42e8000000000000).toModel.unpack)).toNat := rfl
  rw [bits, shifter, sum, toNat_pack_double positive (by omega) (by omega) (by decide) (by decide)]
  omega

theorem expTable_mem (i : Nat) :
    0x3ff * 2 ^ 52 ≤ (expTable.getD (i % 32) 0).toNat + i % 32 * 2 ^ 47 ∧
      (expTable.getD (i % 32) 0).toNat + i % 32 * 2 ^ 47 < 0x400 * 2 ^ 52 := by
  have entries : ∀ j : Fin 32, 0x3ff * 2 ^ 52 ≤ (expTable.getD j 0).toNat + j * 2 ^ 47 ∧
      (expTable.getD j 0).toNat + j * 2 ^ 47 < 0x400 * 2 ^ 52 := by decide
  exact entries ⟨i % 32, Nat.mod_lt i (by decide)⟩

/-- The count ends up in the exponent of the scale, and its sign in the carry. -/
theorem scale_atMost {count : UInt64} (lower : 0x42e8000000000000 - 2 ^ 13 ≤ count.toNat)
    (upper : count.toNat ≤ 0x42e8000000000000 + 2 ^ 13) :
    DoubleAtMost 257 (Float.ofBits (expTable.getD (count % 32).toNat 0 + count <<< 47)) := by
  obtain ⟨low, high⟩ := expTable_mem count.toNat
  have index : (count % 32).toNat = count.toNat % 32 := UInt64.toNat_mod count 32
  have shifted : (count <<< 47).toNat = count.toNat * 2 ^ 47 % 2 ^ 64 := by
    rw [UInt64.toNat_shiftLeft, Nat.shiftLeft_eq]
    rfl
  refine ofBits_doubleAtMost (n := 1280) ?_ (by decide)
  rw [UInt64.toNat_add, index, shifted]
  omega

theorem exp2_atMost {x : Float} (hx : DoubleAtMost 8 x) : DoubleAtMost 500 (exp2 x) := by
  obtain ⟨lower, upper⟩ := shifted_mem hx
  have scale := scale_atMost lower upper
  have shifter : DoubleAtMost 48 (Float.ofBits 0x42e8000000000000) := by decide
  have one : DoubleAtMost 0 1 := by decide
  have b0 : DoubleAtMost 0 (Float.ofBits 0x3fac6af84b912394) := by decide
  have b1 : DoubleAtMost 0 (Float.ofBits 0x3fcebfce50fac4f3) := by decide
  have b2 : DoubleAtMost 0 (Float.ofBits 0x3fe62e42ff0c52d6) := by decide
  have r := hx.sub ((hx.add shifter (by decide)).sub shifter (by decide)) (by decide)
  have z := (b0.mul r (by decide)).add b1 (by decide)
  have y := (b2.mul r (by decide)).add one (by decide)
  have power := (z.mul (r.mul r (by decide)) (by decide)).add y (by decide)
  exact (power.mul scale (by decide)).mono (by decide)

/-! ## Powers -/

/-- What is not above `2 ^ 7` and not below `-150` is at most `2 ^ 8`. -/
theorem doubleAtMost_of_mem {x : Float} {k : Int} (finite : DoubleAtMost k x)
    (below : ¬ Float.ofBits 0x405fffffffd1d571 < x) (above : ¬ x ≤ -150.0) : DoubleAtMost 8 x := by
  have top : (Float.ofBits 0x405fffffffd1d571).toModel.unpack =
    .finite .positive (2 ^ 52 + 0xfffffffd1d571) (-46) (by decide) := rfl
  have bottom :
      (-150.0 : Float).toModel.unpack = .finite .negative (150 * 2 ^ 45) (-45) (by decide) := rfl
  have ordered :
      ¬ (Float.ofBits 0x405fffffffd1d571).toModel.unpack.compare x.toModel.unpack = some .lt :=
    fun less => below (decide_eq_true (beq_iff_eq.2 less))
  have ordered' : ∀ o, x.toModel.unpack.compare (-150.0 : Float).toModel.unpack = some o →
      o.isLE = false := by
    intro o compared
    by_contra le
    exact above
      (decide_eq_true ((Option.any_eq_true _ _).2 ⟨o, compared, Bool.eq_true_of_not_eq_false le⟩))
  unfold DoubleAtMost at finite ⊢
  rw [top] at ordered
  rw [bottom] at ordered'
  generalize x.toModel.unpack = u at finite ordered ordered'
  cases u with
  | infinity => exact finite.elim
  | notANumber => exact finite.elim
  | zero => trivial
  | finite s m e positive =>
    obtain ⟨place, -⟩ := finite
    have length := lastPlace_eq .binary64 m e
    have short : m < 2 ^ 53 := by
      rw [← Nat.log2_lt positive.ne']
      change lastPlace .binary64 m e = max ((m.log2 : Int) + e - 52) (-1074) at length
      omega
    have scale : e ≤ -45 := by
      cases s with
      | positive =>
        by_contra large
        have less : compare (-46) e = .lt := Int.compare_eq_lt.2 (by omega)
        exact ordered (congrArg (fun o : Ordering => some (o.then (compare _ m))) less)
      | negative =>
        by_contra large
        have greater : compare e (-45) = .gt := Int.compare_eq_gt.2 (by omega)
        exact absurd
          (ordered' _ (congrArg (fun o : Ordering => some (o.then (compare m _)).swap) greater))
          nofun
    exact ⟨place, by omega, short.le.trans (Nat.pow_le_pow_right two_pos (by omega))⟩

theorem isNaN_narrow {x : Float} {k : Int} (h : DoubleAtMost k x) (least : -149 ≤ k) :
    (narrow x).isNaN = false := by
  have rounded : Bounded .binary32 k (toFormat .binary32 x.toModel.unpack) :=
    toFormat_bounded .binary32 h least
  change (UnpackedFloat.unpack .binary32 (UnpackedFloat.pack .binary32
    (toFormat .binary32 x.toModel.unpack))).isNaN = false
  rw [isNaN_unpack_pack]
  generalize toFormat .binary32 x.toModel.unpack = u at rounded
  cases u with
  | notANumber => exact rounded.elim
  | infinity | zero | finite => rfl

theorem isNaN_positive (x : Float32) {y : Float32} (hy : y.isFinite) :
    (positive x y).isNaN = false := by
  obtain ⟨lower, upper⟩ := normalisedBits_mem x
  have exponent :=
    (widen_atMost (singleAtMost_of_isFinite hy) (by decide)).mul (log2_atMost lower upper)
    (by decide)
  unfold positive
  dsimp only
  split
  next => rfl
  next below =>
    split
    next => rfl
    next above =>
      exact isNaN_narrow (exp2_atMost (doubleAtMost_of_mem exponent below above)) (by decide)

theorem isNaN_infiniteExponent (x : Float32) {y : Float32} (hy : y.isInf) :
    (infiniteExponent x y).isNaN = false := by
  unfold infiniteExponent
  split
  next => rfl
  next =>
    split
    next => rfl
    next =>
      change (UnpackedFloat.unpack .binary32 (UnpackedFloat.pack .binary32
        (.mul .binary32 y.toModel.unpack y.toModel.unpack))).isNaN = false
      rw [isNaN_unpack_pack]
      change y.toModel.unpack.isInf = true at hy
      generalize y.toModel.unpack = u at hy
      cases u with
      | infinity => rfl
      | notANumber | zero | finite => cases hy

/-- A power of a positive finite number is not NaN, even if the exponent is infinite. -/
theorem isNaN_pow {x y : Float32} (finite : x.isFinite) (positive : 0 < x) (hy : y.isNaN = false) :
    (pow x y).isNaN = false := by
  have unpacked : ∃ m e hm, x.toModel.unpack = .finite .positive m e hm := by
    rcases pos_iff.1 positive with number | infinite
    · exact number
    · change x.toModel.unpack.isFinite = true at finite
      rw [infinite] at finite
      cases finite
  obtain ⟨m, e, hm, unpacked⟩ := unpacked
  have defined : (x.isNaN || y.isNaN) = false := by
    change (x.toModel.unpack.isNaN || y.isNaN) = false
    rw [unpacked, hy]
    rfl
  have moderate : (x == 0 || x.isInf) = false := by
    change (x.toModel.unpack.compare (.zero .positive) == some .eq || x.toModel.unpack.isInf) =
      false
    rw [unpacked]
    rfl
  unfold pow
  rw [defined, moderate, if_neg Bool.false_ne_true, if_neg Bool.false_ne_true, if_pos positive]
  split
  next => rfl
  next =>
    split
    next infinite => exact isNaN_infiniteExponent x infinite
    next notInfinite =>
      refine isNaN_positive x ?_
      change y.toModel.unpack.isNaN = false at hy
      change ¬ y.toModel.unpack.isInf = true at notInfinite
      change y.toModel.unpack.isFinite = true
      generalize y.toModel.unpack = u at hy notInfinite
      cases u with
      | notANumber => cases hy
      | infinity => exact absurd rfl notInfinite
      | zero | finite => rfl

end GroundPlane.Power
