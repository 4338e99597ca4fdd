import Mathlib
import GroundPlane.Scalar.Rounding

/-!
# Rounded numbers and their magnitudes

A number of a binary format is `± m · 2 ^ e` with `e` the exponent of its last place. `Bounded` says
that a number has this form and is at most `2 ^ k`. Rounding keeps such bounds, since `2 ^ k` is
itself a number of the format, so that sums, products and conversions are bounded as they are
without rounding. What is bounded by the range of the format is read back from its bits as it was
written (`unpack_pack`), and so it is finite.
-/

namespace GroundPlane.Rounding

open Float.Model
open Float.Model.UnpackedFloat

/-! ## Leading bits -/

theorem log2_mono {a b : Nat} (h : a ≤ b) : a.log2 ≤ b.log2 := by
  rw [Nat.log2_eq_log_two, Nat.log2_eq_log_two]
  exact Nat.log_mono_right h

theorem log2_le_of_le_two_pow {a k : Nat} (h : a ≤ 2 ^ k) : a.log2 ≤ k := by
  have length := log2_mono h
  rwa [Nat.log2_two_pow] at length

theorem log2_div_two_pow (m k : Nat) : (m / 2 ^ k).log2 = m.log2 - k := by
  rw [Nat.log2_eq_log_two, Nat.log2_eq_log_two, Nat.log_div_base_pow]

theorem log2_shiftLeft {m : Nat} (hm : m ≠ 0) (k : Nat) : (m <<< k).log2 = m.log2 + k := by
  rw [Nat.shiftLeft_eq, Nat.log2_eq_iff (Nat.mul_ne_zero hm (Nat.two_pow_pos k).ne')]
  constructor
  · rw [Nat.pow_add]
    exact Nat.mul_le_mul_right _ (Nat.log2_self_le hm)
  · rw [Nat.add_right_comm, Nat.pow_add]
    exact Nat.mul_lt_mul_of_pos_right Nat.lt_log2_self (Nat.two_pow_pos k)

theorem log2_le_log2_mul {a b : Nat} (ha : a ≠ 0) (hb : b ≠ 0) :
    a.log2 + b.log2 ≤ (a * b).log2 := by
  rw [Nat.le_log2 (Nat.mul_ne_zero ha hb), Nat.pow_add]
  exact Nat.mul_le_mul (Nat.log2_self_le ha) (Nat.log2_self_le hb)

theorem two_pow_mul_two_pow {i j k : Nat} (h : i + j = k) : 2 ^ i * 2 ^ j = 2 ^ k := by
  rw [← Nat.pow_add, h]

/-! ## Rounding to a format -/

theorem shiftRight_mantissa (em : ExtendedMantissa) (k : Nat) :
    (em >>> k).mantissa = em.mantissa / 2 ^ k := by
  induction k with
  | zero => exact (Nat.div_one _).symm
  | succ k ih =>
    change (em >>> k).mantissa / 2 = _
    rw [ih, Nat.div_div_eq_div_mul, Nat.pow_succ]

theorem le_roundedMantissa (em : ExtendedMantissa) :
    em.mantissa ≤ em.roundedMantissa ∧ em.roundedMantissa ≤ em.mantissa + 1 := by
  obtain ⟨m, half, rest⟩ := em
  cases half <;> cases rest <;>
    simp only [ExtendedMantissa.roundedMantissa, ExtendedMantissa.accuracy,
      Accuracy.roundToNearestEven] <;>
    omega

/-- Nothing is lost if the places that are cut off are zeros. -/
theorem shiftRight_exact (n k : Nat) :
    ExtendedMantissa.mk (n * 2 ^ k) false false >>> k = ExtendedMantissa.mk n false false := by
  induction k generalizing n with
  | zero =>
    rw [Nat.pow_zero, Nat.mul_one]
    rfl
  | succ k ih =>
    have even : n * 2 ^ (k + 1) = 2 * n * 2 ^ k := by
      rw [Nat.pow_succ]
      ring
    change (ExtendedMantissa.mk (n * 2 ^ (k + 1)) false false >>> k).shiftRightOne = _
    rw [even, ih]
    simp [ExtendedMantissa.shiftRightOne]

/-- Rounding does not go beyond a number of as many places. -/
theorem roundedMantissa_le {m n k : Nat} (h : m ≤ n * 2 ^ k) :
    (ExtendedMantissa.mk m false false >>> k).roundedMantissa ≤ n := by
  rcases h.lt_or_eq with less | rfl
  · have cut := (Nat.div_lt_iff_lt_mul (Nat.two_pow_pos k)).2 less
    have carried := (le_roundedMantissa (ExtendedMantissa.mk m false false >>> k)).2
    rw [shiftRight_mantissa] at carried
    exact carried.trans cut
  · rw [shiftRight_exact]
    exact le_rfl

/-- The exponent of the last place that a format keeps of `m · 2 ^ e`. -/
def lastPlace (format : Format) (m : Nat) (e : Int) : Int :=
  format.targetExponent (totalExponent m e)

variable {format : Format}

theorem lastPlace_eq (format : Format) (m : Nat) (e : Int) :
    lastPlace format m e =
      max (m.log2 + e - format.mantissaBitsWithoutImplicit) format.minExponent := by
  unfold lastPlace Format.targetExponent totalExponent Format.mantissaBits
  omega

theorem minExponent_nonpos (format : Format) : format.minExponent ≤ 0 := by
  have mantissa := format.hm
  have exponent : 0 < (2 : Int) ^ (format.exponentBits - 1) := by positivity
  unfold Format.minExponent Format.mantissaBits
  omega

theorem shiftToTargetExponent_eq {m : Nat} {e : Int} (long : e ≤ lastPlace format m e) :
    shiftToTargetExponent format m e .exact =
      (ExtendedMantissa.mk m false false >>> (lastPlace format m e - e).toNat,
        lastPlace format m e) := by
  have reached : e + ((lastPlace format m e - e).toNat : Int) = lastPlace format m e := by omega
  change (ExtendedMantissa.mk m false false >>> (lastPlace format m e - e).toNat,
    e + ((lastPlace format m e - e).toNat : Int)) = _
  rw [reached]

/-- The number `± m · 2 ^ e`, which may be zero. -/
def ofMantissa (s : Sign) (m : Nat) (e : Int) : UnpackedFloat :=
  if h : m = 0 then .zero s else .finite s m e (Nat.pos_of_ne_zero h)

theorem ofMantissa_of_pos {s : Sign} {m : Nat} {e : Int} (positive : 0 < m) :
    ofMantissa s m e = .finite s m e positive :=
  dif_neg positive.ne'

/-- The mantissa of `m · 2 ^ e`, rounded at its last place. -/
def roundedAt (format : Format) (m : Nat) (e : Int) : Nat :=
  (ExtendedMantissa.mk m false false >>> (lastPlace format m e - e).toNat).roundedMantissa

/-- The number `± r · 2 ^ p` with its last place where the format keeps it, since a carry may have
moved it. -/
def settle (format : Format) (s : Sign) (r : Nat) (p : Int) : UnpackedFloat :=
  ofMantissa s (r / 2 ^ (lastPlace format r p - p).toNat) (lastPlace format r p)

theorem le_roundedAt (format : Format) (m : Nat) (e : Int) :
    m / 2 ^ (lastPlace format m e - e).toNat ≤ roundedAt format m e := by
  have kept :=
    (le_roundedMantissa (ExtendedMantissa.mk m false false >>> (lastPlace format m e - e).toNat)).1
  rwa [shiftRight_mantissa] at kept

theorem lastPlace_le_roundedAt {m : Nat} {e : Int} (long : e ≤ lastPlace format m e) :
    lastPlace format m e ≤ lastPlace format (roundedAt format m e) (lastPlace format m e) := by
  have length := log2_mono (le_roundedAt format m e)
  rw [log2_div_two_pow] at length
  rw [lastPlace_eq] at length long ⊢
  rw [lastPlace_eq]
  omega

/-- A number is cut at its last place, up to a carry, and then settled. -/
theorem roundWithAccuracy_eq (s : Sign) {m : Nat} {e : Int} (long : e ≤ lastPlace format m e) :
    roundWithAccuracy format s m e .exact =
      settle format s (roundedAt format m e) (lastPlace format m e) := by
  change ofMantissa s
    (shiftToTargetExponent format (shiftToTargetExponent format m e .exact).1.roundedMantissa
      (shiftToTargetExponent format m e .exact).2 .exact).1.mantissa
    (shiftToTargetExponent format (shiftToTargetExponent format m e .exact).1.roundedMantissa
      (shiftToTargetExponent format m e .exact).2 .exact).2 = _
  rw [shiftToTargetExponent_eq long]
  change ofMantissa s
    (shiftToTargetExponent format (roundedAt format m e) (lastPlace format m e) .exact).1.mantissa
    (shiftToTargetExponent format (roundedAt format m e) (lastPlace format m e) .exact).2 = _
  rw [shiftToTargetExponent_eq (lastPlace_le_roundedAt long), shiftRight_mantissa]
  rfl

theorem exists_rounded (format : Format) (s : Sign) {m : Nat} {e : Int}
    (long : e ≤ lastPlace format m e) :
    ∃ r, m / 2 ^ (lastPlace format m e - e).toNat ≤ r ∧
      (∀ n, m ≤ n * 2 ^ (lastPlace format m e - e).toNat → r ≤ n) ∧
      lastPlace format m e ≤ lastPlace format r (lastPlace format m e) ∧
      roundWithAccuracy format s m e .exact =
        ofMantissa s
          (r / 2 ^ (lastPlace format r (lastPlace format m e) - lastPlace format m e).toNat)
          (lastPlace format r (lastPlace format m e)) :=
  ⟨roundedAt format m e, le_roundedAt format m e, fun _ => roundedMantissa_le,
    lastPlace_le_roundedAt long, roundWithAccuracy_eq s long⟩

/-- The carry does not move the last place beyond the leading bit. -/
theorem shift_le_log2 {r : Nat} {e : Int} (least : format.minExponent ≤ e) :
    (lastPlace format r e - e).toNat ≤ r.log2 := by
  rw [lastPlace_eq]
  omega

/-! ## Bounds -/

/-- `m · 2 ^ e` is at most `2 ^ k`. -/
def AtMost (k : Int) (m : Nat) (e : Int) : Prop :=
  e ≤ k ∧ m ≤ 2 ^ (k - e).toNat

/-- A number of a format that is at most `2 ^ k`. -/
def Bounded (format : Format) (k : Int) : UnpackedFloat → Prop
  | .zero _ => True
  | .finite _ m e _ => lastPlace format m e = e ∧ AtMost k m e
  | _ => False

theorem bounded_ofMantissa (s : Sign) {m : Nat} {e k : Int}
    (held : m ≠ 0 → lastPlace format m e = e ∧ AtMost k m e) :
    Bounded format k (ofMantissa s m e) := by
  unfold ofMantissa
  split
  next => trivial
  next nonzero => exact held nonzero

theorem AtMost.shiftLeft {m : Nat} {e e' k : Int} (h : AtMost k m e) (le : e' ≤ e) :
    AtMost k (m <<< (e - e').toNat) e' := by
  obtain ⟨place, bound⟩ := h
  refine ⟨le.trans place, ?_⟩
  rw [Nat.shiftLeft_eq, show (k - e').toNat = (k - e).toNat + (e - e').toNat by omega, Nat.pow_add]
  exact Nat.mul_le_mul_right _ bound

theorem roundWithAccuracy_bounded (s : Sign) {m : Nat} {e k : Int} (long : e ≤ lastPlace format m e)
    (bound : AtMost k m e) (least : format.minExponent ≤ k) :
    Bounded format k (roundWithAccuracy format s m e .exact) := by
  obtain ⟨place, bound⟩ := bound
  obtain ⟨r, -, up, further, rounded⟩ := exists_rounded format s long
  have length := log2_le_of_le_two_pow bound
  have cut := lastPlace_eq format m e
  rw [rounded]
  -- `2 ^ k` bounds the mantissa at the first cut, and again where a carry may have moved the last
  -- place
  generalize lastPlace format m e = first at *
  have first_le : first ≤ k := by omega
  have bound₁ : r ≤ 2 ^ (k - first).toNat :=
    up _ (bound.trans_eq (two_pow_mul_two_pow (by omega)).symm)
  have length₁ := log2_le_of_le_two_pow bound₁
  have again := lastPlace_eq format r first
  have short := shift_le_log2 (r := r) (show format.minExponent ≤ first by omega)
  have cut₁ := log2_div_two_pow r (lastPlace format r first - first).toNat
  have settled := lastPlace_eq format (r / 2 ^ (lastPlace format r first - first).toNat)
    (lastPlace format r first)
  refine bounded_ofMantissa s fun _ => ⟨by omega, by omega, ?_⟩
  refine (Nat.div_le_div_right bound₁).trans_eq ?_
  rw [Nat.pow_div (by omega) two_pos]
  congr 1
  omega

/-- What `round` does before it cuts: it appends zeros, down to the last place. -/
theorem round_eq (s : Sign) (m : Nat) (e : Int) :
    UnpackedFloat.round format s m e =
      roundWithAccuracy format s (m <<< (e - min e (lastPlace format m e)).toNat)
        (min e (lastPlace format m e)) .exact := by
  change roundWithAccuracy format s (m <<< (e - lastPlace format m e).toNat)
    (e - ((e - lastPlace format m e).toNat : Int)) .exact = _
  have zeros : (e - lastPlace format m e).toNat = (e - min e (lastPlace format m e)).toNat := by
    omega
  have place : e - ((e - lastPlace format m e).toNat : Int) = min e (lastPlace format m e) := by
    omega
  rw [place, zeros]

theorem lastPlace_shiftLeft (format : Format) {m : Nat} {e e' : Int} (hm : m ≠ 0) (le : e' ≤ e) :
    lastPlace format (m <<< (e - e').toNat) e' = lastPlace format m e := by
  rw [lastPlace_eq, lastPlace_eq, log2_shiftLeft hm]
  omega

theorem round_bounded (s : Sign) {m : Nat} {e k : Int} (hm : m ≠ 0) (bound : AtMost k m e)
    (least : format.minExponent ≤ k) : Bounded format k (UnpackedFloat.round format s m e) := by
  have place := lastPlace_shiftLeft format hm (min_le_left e (lastPlace format m e))
  rw [round_eq]
  refine roundWithAccuracy_bounded s ?_ (bound.shiftLeft (min_le_left _ _)) least
  rw [place]
  exact min_le_right _ _

/-- A number that is not below the least place is not rounded to zero. -/
theorem exists_finite_of_roundWithAccuracy (format : Format) (s : Sign) {m : Nat} {e : Int}
    (hm : m ≠ 0) (long : e ≤ lastPlace format m e) (least : format.minExponent ≤ m.log2 + e) :
    ∃ m' e' positive, roundWithAccuracy format s m e .exact = .finite s m' e' positive := by
  obtain ⟨r, kept, -, further, rounded⟩ := exists_rounded format s long
  have cut := lastPlace_eq format m e
  have short := shift_le_log2 (r := r) (show format.minExponent ≤ lastPlace format m e by omega)
  have positive : 0 < r := by
    refine lt_of_lt_of_le (Nat.div_pos ?_ (Nat.two_pow_pos _)) kept
    rw [← Nat.le_log2 hm]
    omega
  have positive' :
      0 < r / 2 ^ (lastPlace format r (lastPlace format m e) - lastPlace format m e).toNat :=
    Nat.div_pos ((Nat.le_log2 positive.ne').1 short) (Nat.two_pow_pos _)
  exact ⟨_, _, positive', rounded.trans (ofMantissa_of_pos positive')⟩

theorem exists_finite_of_round (format : Format) (s : Sign) {m : Nat} {e : Int} (hm : m ≠ 0)
    (least : format.minExponent ≤ m.log2 + e) :
    ∃ m' e' positive, UnpackedFloat.round format s m e = .finite s m' e' positive := by
  have place := lastPlace_shiftLeft format hm (min_le_left e (lastPlace format m e))
  have log := log2_shiftLeft hm (e - min e (lastPlace format m e)).toNat
  rw [round_eq]
  refine exists_finite_of_roundWithAccuracy format s (by simpa [Nat.shiftLeft_eq] using hm) ?_
    (by omega)
  rw [place]
  exact min_le_right _ _

theorem normalize_bounded (z : Sign) {n : Int} {e k : Int} (bound : AtMost k n.natAbs e)
    (least : format.minExponent ≤ k) : Bounded format k (UnpackedFloat.normalize format n e z) := by
  unfold UnpackedFloat.normalize
  split
  next negative =>
    rw [Int.compare_eq_lt] at negative
    rw [show (-n).toNat = n.natAbs by omega]
    exact round_bounded _ (by omega) bound least
  next => trivial
  next positive =>
    rw [Int.compare_eq_gt] at positive
    rw [show n.toNat = n.natAbs by omega]
    exact round_bounded _ (by omega) bound least

/-! ## Operations -/

theorem natAbs_apply (s : Sign) (n : Int) : (s.apply n).natAbs = n.natAbs := by
  cases s
  · exact Int.natAbs_neg n
  · rfl

theorem unpackedSub_eq (a b : UnpackedFloat) :
    UnpackedFloat.sub format a b = UnpackedFloat.add format a b.neg := by
  cases a with
  | infinity s => cases b <;> rfl
  | notANumber => cases b <;> rfl
  | zero s => cases b <;> rfl
  | finite s m e positive =>
    cases b with
    | finite s' m' e' positive' =>
      have difference (x y : Int) : s.apply x - s'.apply y = s.apply x + (-s').apply y := by
        cases s'
        · exact Int.sub_neg _ _
        · rfl
      change UnpackedFloat.normalize format _ _ _ = UnpackedFloat.normalize format _ _ _
      rw [difference]
    | _ => rfl

namespace Bounded

variable {a b : UnpackedFloat} {i j : Int}

theorem mono (h : Bounded format i a) (le : i ≤ j) : Bounded format j a := by
  cases a with
  | zero => trivial
  | finite s m e positive =>
    obtain ⟨place, small, bound⟩ := h
    exact ⟨place, small.trans le, bound.trans (Nat.pow_le_pow_right two_pos (by omega))⟩
  | infinity => exact h
  | notANumber => exact h

theorem neg (h : Bounded format i a) : Bounded format i a.neg := by
  cases a with
  | zero => trivial
  | finite => exact h
  | infinity => exact h
  | notANumber => exact h

theorem mul (ha : Bounded format i a) (hb : Bounded format j b)
    (least : format.minExponent ≤ i + j) :
    Bounded format (i + j) (UnpackedFloat.mul format a b) := by
  cases a with
  | infinity => exact ha.elim
  | notANumber => exact ha.elim
  | zero =>
    cases b with
    | infinity => exact hb.elim
    | notANumber => exact hb.elim
    | zero => trivial
    | finite => trivial
  | finite s m e positive =>
    cases b with
    | infinity => exact hb.elim
    | notANumber => exact hb.elim
    | zero => trivial
    | finite s' m' e' positive' =>
      obtain ⟨place, small, bound⟩ := ha
      obtain ⟨place', small', bound'⟩ := hb
      have length := log2_le_log2_mul positive.ne' positive'.ne'
      have low := minExponent_nonpos format
      refine roundWithAccuracy_bounded _ ?_ ⟨by omega, ?_⟩ least
      · rw [lastPlace_eq] at place place' ⊢
        omega
      · exact (Nat.mul_le_mul bound bound').trans_eq (two_pow_mul_two_pow (by omega))

theorem add (ha : Bounded format i a) (hb : Bounded format j b)
    (least : format.minExponent ≤ max i j + 1) :
    Bounded format (max i j + 1) (UnpackedFloat.add format a b) := by
  cases a with
  | infinity => exact ha.elim
  | notANumber => exact ha.elim
  | zero s =>
    cases b with
    | infinity => exact hb.elim
    | notANumber => exact hb.elim
    | zero s' => cases s <;> cases s' <;> trivial
    | finite => exact hb.mono (by omega)
  | finite s m e positive =>
    cases b with
    | infinity => exact hb.elim
    | notANumber => exact hb.elim
    | zero => exact ha.mono (by omega)
    | finite s' m' e' positive' =>
      obtain ⟨small, bound⟩ := ha.2.shiftLeft (min_le_left e e')
      obtain ⟨-, bound'⟩ := hb.2.shiftLeft (min_le_right e e')
      refine normalize_bounded .positive ⟨by omega, ?_⟩ least
      have half {l : Int} (h : l ≤ max i j) :
          2 ^ (l - min e e').toNat ≤ 2 ^ (max i j - min e e').toNat :=
        Nat.pow_le_pow_right two_pos (by omega)
      calc _ ≤ m <<< (e - min e e').toNat + m' <<< (e' - min e e').toNat := by
            refine (Int.natAbs_add_le _ _).trans_eq ?_
            rw [natAbs_apply, natAbs_apply, Int.natAbs_natCast, Int.natAbs_natCast]
        _ ≤ 2 ^ (max i j - min e e').toNat + 2 ^ (max i j - min e e').toNat :=
            Nat.add_le_add (bound.trans (half (le_max_left i j)))
              (bound'.trans (half (le_max_right i j)))
        _ = 2 ^ (max i j + 1 - min e e').toNat := by
            rw [← Nat.two_mul, ← Nat.pow_succ']
            congr 1
            omega

theorem sub (ha : Bounded format i a) (hb : Bounded format j b)
    (least : format.minExponent ≤ max i j + 1) :
    Bounded format (max i j + 1) (UnpackedFloat.sub format a b) := by
  rw [unpackedSub_eq]
  exact ha.add hb.neg least

end Bounded

/-! ## Packing -/

theorem unpackSign_packComponents (s : Sign) (exponent : BitVec format.exponentBits)
    (mantissa : BitVec format.mantissaBitsWithoutImplicit) :
    unpackSign (packComponents format s exponent mantissa) = s.toBitVec := by
  ext i hi
  have beyond : ¬format.mantissaBitsWithoutImplicit + format.exponentBits + i <
      format.mantissaBitsWithoutImplicit := by
    omega
  have above : format.mantissaBitsWithoutImplicit + format.exponentBits + i -
      format.mantissaBitsWithoutImplicit = format.exponentBits + i := by
    omega
  simp [unpackSign, packComponents, BitVec.getLsbD_append, beyond, above, hi]

theorem ofBitVec_toBitVec (s : Sign) : Sign.ofBitVec s.toBitVec = s := by
  cases s <;> rfl

/-- The leading bit of a normal mantissa is not stored. -/
theorem toNat_one_append {n : Nat} (m : BitVec n) : (1#1 ++ m).toNat = 2 ^ n + m.toNat := by
  rw [BitVec.toNat_append, ← Nat.shiftLeft_add_eq_or_of_lt m.isLt, Nat.shiftLeft_eq]
  simp

theorem toNat_neg_one (n : Nat) : (-1#n).toNat = 2 ^ n - 1 := by
  rw [BitVec.neg_one_eq_allOnes, BitVec.toNat_allOnes]

/-- The least exponent and the number of exponents, by the bias. -/
theorem exponents_eq (format : Format) :
    format.minExponent = 1 - format.exponentBias - format.mantissaBitsWithoutImplicit ∧
      2 ^ format.exponentBits = 2 * format.exponentBias + 2 := by
  have positive := Nat.two_pow_pos (format.exponentBits - 1)
  have cast : ((2 ^ (format.exponentBits - 1) : Nat) : Int) = 2 ^ (format.exponentBits - 1) := by
    norm_cast
  have double : 2 ^ format.exponentBits = 2 * 2 ^ (format.exponentBits - 1) := by
    rw [← Nat.pow_succ', Nat.succ_eq_add_one, Nat.sub_add_cancel format.he]
  unfold Format.minExponent Format.exponentBias Format.mantissaBits
  omega

theorem toNat_unpackExponent (b : BitVec format.numBits) :
    (unpackExponent b).toNat =
      b.toNat / 2 ^ format.mantissaBitsWithoutImplicit % 2 ^ format.exponentBits := by
  have positive := format.he
  have width :
      format.mantissaBitsWithoutImplicit + format.exponentBits - 1 -
        format.mantissaBitsWithoutImplicit + 1 =
    format.exponentBits := by omega
  simp [unpackExponent, Nat.shiftRight_eq_div_pow, width]

/-- What bits stand for, infinities and NaN apart. -/
theorem unpack_eq {b : BitVec format.numBits} (ordinary : unpackExponent b ≠ -1#_) :
    UnpackedFloat.unpack format b =
      if unpackExponent b = 0#_ then
        ofMantissa (.ofBitVec (unpackSign b)) (unpackMantissa b).toNat format.minExponent
      else
        ofMantissa (.ofBitVec (unpackSign b))
          (2 ^ format.mantissaBitsWithoutImplicit + (unpackMantissa b).toNat)
          ((unpackExponent b).toNat -
            (format.exponentBias + format.mantissaBitsWithoutImplicit)) := by
  obtain ⟨least, -⟩ := exponents_eq format
  unfold UnpackedFloat.unpack
  rw [if_neg ordinary]
  split
  next subnormal =>
    have exponent : (unpackExponent b).toNat = 0 := by
      rw [subnormal, BitVec.toNat_ofNat, Nat.zero_mod]
    split
    next zero => rw [zero, BitVec.toNat_ofNat, Nat.zero_mod, ofMantissa, dif_pos rfl]
    next nonzero =>
      have positive : (unpackMantissa b).toNat ≠ 0 :=
        fun zero => nonzero (BitVec.eq_of_toNat_eq (by simpa using zero))
      rw [ofMantissa, dif_neg positive, finite.injEq]
      exact ⟨rfl, rfl, by omega⟩
  next =>
    have leading := Nat.two_pow_pos format.mantissaBitsWithoutImplicit
    rw [ofMantissa, dif_neg (by omega), finite.injEq]
    exact ⟨rfl, toNat_one_append _, rfl⟩

theorem unpack_packComponents (s : Sign) {exponent : BitVec format.exponentBits}
    (mantissa : BitVec format.mantissaBitsWithoutImplicit) (ordinary : exponent ≠ -1#_) :
    UnpackedFloat.unpack format (packComponents format s exponent mantissa) =
      if exponent = 0#_ then ofMantissa s mantissa.toNat format.minExponent
      else
        ofMantissa s (2 ^ format.mantissaBitsWithoutImplicit + mantissa.toNat)
          (exponent.toNat - (format.exponentBias + format.mantissaBitsWithoutImplicit)) := by
  rw [unpack_eq (by rwa [unpackExponent_packComponents]), unpackExponent_packComponents,
    unpackMantissa_packComponents, unpackSign_packComponents, ofBitVec_toBitVec]

/-- Bits with a small exponent stand for a small number. -/
theorem unpack_bounded {b : BitVec format.numBits} {n : Nat} (low : (unpackExponent b).toNat < n)
    (high : n < 2 ^ format.exponentBits) :
    Bounded format (n - format.exponentBias) (UnpackedFloat.unpack format b) := by
  obtain ⟨least, -⟩ := exponents_eq format
  have stored := (unpackMantissa b).isLt
  have ordinary : unpackExponent b ≠ -1#_ := by
    intro special
    rw [special, toNat_neg_one] at low
    omega
  rw [unpack_eq ordinary]
  split
  next =>
    refine bounded_ofMantissa _ fun positive => ?_
    have short := (Nat.log2_lt positive).2 stored
    refine ⟨?_, by omega, stored.le.trans (Nat.pow_le_pow_right two_pos (by omega))⟩
    rw [lastPlace_eq]
    omega
  next normal =>
    have exponent : (unpackExponent b).toNat ≠ 0 :=
      fun zero => normal (BitVec.eq_of_toNat_eq (by simpa using zero))
    have length : (2 ^ format.mantissaBitsWithoutImplicit + (unpackMantissa b).toNat).log2 =
        format.mantissaBitsWithoutImplicit := by
      rw [Nat.log2_eq_iff (by omega), Nat.pow_succ]
      omega
    refine bounded_ofMantissa _ fun _ => ⟨?_, by omega, ?_⟩
    · rw [lastPlace_eq]
      omega
    · refine le_trans ?_
        (Nat.pow_le_pow_right two_pos (show format.mantissaBitsWithoutImplicit + 1 ≤ _ by omega))
      rw [Nat.pow_succ]
      omega

theorem pack_finite {s : Sign} {m : Nat} {e : Int} (positive : 0 < m)
    (range : (e + format.exponentBias + format.mantissaBitsWithoutImplicit).toNat + 1 <
      2 ^ format.exponentBits) :
    UnpackedFloat.pack format (.finite s m e positive) =
      packComponents format s
        (if m.log2 = format.mantissaBitsWithoutImplicit then
          .ofNat _ (e + format.exponentBias + format.mantissaBitsWithoutImplicit).toNat
        else 0#_)
        (.ofNat _ m) := by
  have length : m.log2 + 1 = format.mantissaBits ↔ m.log2 = format.mantissaBitsWithoutImplicit := by
    unfold Format.mantissaBits
    omega
  simp only [UnpackedFloat.pack, not_le.2 range, if_false, length]
  split <;> rfl

theorem ofNat_ne_neg_one {width n : Nat} (range : n + 1 < 2 ^ width) :
    BitVec.ofNat width n ≠ -1#_ := by
  intro special
  have value := congrArg BitVec.toNat special
  rw [toNat_neg_one, BitVec.toNat_ofNat, Nat.mod_eq_of_lt (by omega)] at value
  omega

theorem ofNat_ne_zero {width n : Nat} (positive : n ≠ 0) (range : n < 2 ^ width) :
    BitVec.ofNat width n ≠ 0#_ := by
  intro zero
  have value := congrArg BitVec.toNat zero
  rw [BitVec.toNat_ofNat, BitVec.toNat_ofNat, Nat.mod_eq_of_lt range, Nat.zero_mod] at value
  exact positive value

/-- A finite number that a format can hold: its last place is the one that the format keeps, and its
exponent is in range. -/
def Representable (format : Format) : UnpackedFloat → Prop
  | .zero _ => True
  | .finite _ m e _ => lastPlace format m e = e ∧
      (e + format.exponentBias + format.mantissaBitsWithoutImplicit).toNat + 1 <
        2 ^ format.exponentBits
  | _ => False

theorem Bounded.representable {u : UnpackedFloat} {k : Int} (bounded : Bounded format k u)
    (wide : 0 < format.exponentBias) (range : k ≤ format.exponentBias) :
    Representable format u := by
  obtain ⟨least, capacity⟩ := exponents_eq format
  cases u with
  | infinity => exact bounded
  | notANumber => exact bounded
  | zero => trivial
  | finite s m e positive =>
    obtain ⟨place, small, bound⟩ := bounded
    have length := log2_le_of_le_two_pow bound
    refine ⟨place, ?_⟩
    rw [lastPlace_eq] at place
    omega

/-- A number that a format can hold is read back as it was written. -/
theorem Representable.unpack_pack {u : UnpackedFloat} (held : Representable format u)
    (wide : 0 < format.exponentBias) :
    UnpackedFloat.unpack format (UnpackedFloat.pack format u) = u := by
  obtain ⟨least, capacity⟩ := exponents_eq format
  have special : (0#_ : BitVec format.exponentBits) ≠ -1#_ := ofNat_ne_neg_one (by omega)
  cases u with
  | infinity => exact held.elim
  | notANumber => exact held.elim
  | zero s =>
    change UnpackedFloat.unpack format (packComponents format s 0#_ 0#_) = _
    rw [unpack_packComponents s _ special, if_pos rfl, BitVec.toNat_ofNat, Nat.zero_mod, ofMantissa,
      dif_pos rfl]
  | finite s m e positive =>
    obtain ⟨place, biased⟩ := held
    rw [lastPlace_eq] at place
    rw [pack_finite positive biased]
    split
    next normal =>
      obtain ⟨lower, upper⟩ := (Nat.log2_eq_iff positive.ne').1 normal
      have mantissa :
          2 ^ format.mantissaBitsWithoutImplicit + m % 2 ^ format.mantissaBitsWithoutImplicit =
            m := by
        rw [Nat.pow_succ] at upper
        rw [Nat.mod_eq_sub_mod lower, Nat.mod_eq_of_lt (by omega)]
        omega
      rw [unpack_packComponents s _ (ofNat_ne_neg_one biased),
        if_neg (ofNat_ne_zero (by omega) (by omega)),
        BitVec.toNat_ofNat, BitVec.toNat_ofNat, mantissa, Nat.mod_eq_of_lt (by omega), ofMantissa,
        dif_neg positive.ne', finite.injEq]
      exact ⟨rfl, rfl, by omega⟩
    next subnormal =>
      have short : m < 2 ^ format.mantissaBitsWithoutImplicit :=
        (Nat.log2_lt positive.ne').1 (by omega)
      rw [unpack_packComponents s _ special, if_pos rfl, BitVec.toNat_ofNat, Nat.mod_eq_of_lt short,
        ofMantissa, dif_neg positive.ne', finite.injEq]
      exact ⟨rfl, rfl, by omega⟩

theorem unpack_pack {u : UnpackedFloat} {k : Int} (bounded : Bounded format k u)
    (wide : 0 < format.exponentBias) (range : k ≤ format.exponentBias) :
    UnpackedFloat.unpack format (UnpackedFloat.pack format u) = u :=
  (bounded.representable wide range).unpack_pack wide

/-- The exponent of a finite number is not that of infinities and NaN. -/
theorem unpackExponent_lt_of_isFinite {b : BitVec format.numBits}
    (finite : (UnpackedFloat.unpack format b).isFinite) :
    (unpackExponent b).toNat < 2 ^ format.exponentBits - 1 := by
  have bits := (unpackExponent b).isLt
  by_contra special
  have infinite : unpackExponent b = -1#_ := BitVec.eq_of_toNat_eq (by rw [toNat_neg_one]; omega)
  unfold UnpackedFloat.unpack at finite
  rw [if_pos infinite] at finite
  split at finite <;> exact absurd finite Bool.false_ne_true

theorem representable_ofMantissa (s : Sign) {m : Nat} {e k : Int}
    (bounded : Bounded format k (ofMantissa s m e))
    (range : (e + format.exponentBias + format.mantissaBitsWithoutImplicit).toNat + 1 <
      2 ^ format.exponentBits) :
    Representable format (ofMantissa s m e) := by
  unfold ofMantissa at bounded ⊢
  split at bounded
  next zero =>
    rw [dif_pos zero]
    trivial
  next nonzero =>
    rw [dif_neg nonzero]
    exact ⟨bounded.1, range⟩

/-- What is read from bits can be written again. -/
theorem representable_unpack {b : BitVec format.numBits}
    (finite : (UnpackedFloat.unpack format b).isFinite)
    (wide : 0 < format.exponentBias) : Representable format (UnpackedFloat.unpack format b) := by
  obtain ⟨least, capacity⟩ := exponents_eq format
  have exponent := unpackExponent_lt_of_isFinite finite
  have bounded := unpack_bounded exponent (by omega)
  have ordinary : unpackExponent b ≠ -1#_ := by
    intro special
    rw [special, toNat_neg_one] at exponent
    omega
  rw [unpack_eq ordinary] at bounded ⊢
  split at bounded
  next subnormal =>
    rw [if_pos subnormal]
    exact representable_ofMantissa _ bounded (by omega)
  next normal =>
    rw [if_neg normal]
    exact representable_ofMantissa _ bounded (by omega)

/-! ## Single and double precision -/

instance decidableBounded (format : Format) (k : Int) : DecidablePred (Bounded format k)
  | .zero _ => .isTrue trivial
  | .finite _ m e _ =>
    inferInstanceAs (Decidable (lastPlace format m e = e ∧ e ≤ k ∧ m ≤ 2 ^ (k - e).toNat))
  | .infinity _ => .isFalse id
  | .notANumber => .isFalse id

/-- A number of single precision that is at most `2 ^ k`. -/
def SingleAtMost (k : Int) (x : Float32) : Prop :=
  Bounded .binary32 k x.toModel.unpack

/-- A number of double precision that is at most `2 ^ k`. -/
def DoubleAtMost (k : Int) (x : Float) : Prop :=
  Bounded .binary64 k x.toModel.unpack

instance (k : Int) (x : Float32) : Decidable (SingleAtMost k x) :=
  decidableBounded _ _ _

instance (k : Int) (x : Float) : Decidable (DoubleAtMost k x) :=
  decidableBounded _ _ _

theorem Bounded.single {u : UnpackedFloat} {k : Int} (bounded : Bounded .binary32 k u)
    (range : k ≤ 127) : SingleAtMost k (.ofModel (.pack u)) := by
  have back := unpack_pack bounded (by decide) range
  change Bounded .binary32 k (UnpackedFloat.unpack .binary32 (UnpackedFloat.pack .binary32 u))
  rwa [back]

theorem Bounded.double {u : UnpackedFloat} {k : Int} (bounded : Bounded .binary64 k u)
    (range : k ≤ 1023) : DoubleAtMost k (.ofModel (.pack u)) := by
  have back := unpack_pack bounded (by decide) range
  change Bounded .binary64 k (UnpackedFloat.unpack .binary64 (UnpackedFloat.pack .binary64 u))
  rwa [back]

namespace DoubleAtMost

variable {x y : Float} {i j : Int}

theorem mul (hx : DoubleAtMost i x) (hy : DoubleAtMost j y) (range : -1074 ≤ i + j ∧ i + j ≤ 1023) :
    DoubleAtMost (i + j) (x * y) :=
  (Bounded.mul hx hy range.1).double range.2

theorem add (hx : DoubleAtMost i x) (hy : DoubleAtMost j y)
    (range : -1074 ≤ max i j + 1 ∧ max i j + 1 ≤ 1023) : DoubleAtMost (max i j + 1) (x + y) :=
  (Bounded.add hx hy range.1).double range.2

theorem sub (hx : DoubleAtMost i x) (hy : DoubleAtMost j y)
    (range : -1074 ≤ max i j + 1 ∧ max i j + 1 ≤ 1023) : DoubleAtMost (max i j + 1) (x - y) :=
  (Bounded.sub hx hy range.1).double range.2

theorem neg (hx : DoubleAtMost i x) (range : i ≤ 1023) : DoubleAtMost i (-x) :=
  (Bounded.neg hx).double range

end DoubleAtMost

namespace SingleAtMost

variable {x y : Float32} {i j : Int}

theorem mul (hx : SingleAtMost i x) (hy : SingleAtMost j y) (range : -149 ≤ i + j ∧ i + j ≤ 127) :
    SingleAtMost (i + j) (x * y) :=
  (Bounded.mul hx hy range.1).single range.2

theorem add (hx : SingleAtMost i x) (hy : SingleAtMost j y)
    (range : -149 ≤ max i j + 1 ∧ max i j + 1 ≤ 127) : SingleAtMost (max i j + 1) (x + y) :=
  (Bounded.add hx hy range.1).single range.2

theorem neg (hx : SingleAtMost i x) (range : i ≤ 127) : SingleAtMost i (-x) :=
  (Bounded.neg hx).single range

theorem isFinite (hx : SingleAtMost i x) : x.isFinite := by
  unfold SingleAtMost at hx
  change x.toModel.unpack.isFinite = true
  cases unpacked : x.toModel.unpack <;> rw [unpacked] at hx
  · exact hx.elim
  · exact hx.elim
  · rfl
  · rfl

end SingleAtMost

theorem singleAtMost_of_isFinite {x : Float32} (finite : x.isFinite) : SingleAtMost 128 x :=
  unpack_bounded (n := 255) (unpackExponent_lt_of_isFinite finite) (by decide)

/-! ## Conversions -/

theorem toFormat_bounded (format : Format) {source : Format} {u : UnpackedFloat} {k : Int}
    (h : Bounded source k u)
    (least : format.minExponent ≤ k) : Bounded format k (toFormat format u) := by
  cases u with
  | zero => trivial
  | finite s m e positive => exact round_bounded s positive.ne' h.2 least
  | infinity => exact h
  | notANumber => exact h

theorem narrow_atMost {x : Float} {k : Int} (h : DoubleAtMost k x) (range : -149 ≤ k ∧ k ≤ 127) :
    SingleAtMost k (narrow x) :=
  (toFormat_bounded .binary32 h range.1).single range.2

theorem widen_atMost {x : Float32} {k : Int} (h : SingleAtMost k x) (range : -1074 ≤ k ∧ k ≤ 1023) :
    DoubleAtMost k (widen x) :=
  (toFormat_bounded .binary64 h range.1).double range.2

theorem atMost_natCast {n k : Nat} (h : n ≤ 2 ^ k) : AtMost k n 0 :=
  ⟨by omega, by simpa using h⟩

theorem ofScientific_bounded {n k : Nat} (h : n ≤ 2 ^ k) :
    Bounded format k (UnpackedFloat.ofScientific format n 0) := by
  have wide : (0 : Int) < 2 ^ format.exponentBits := by positivity
  have mantissa : format.mantissaBits = 1 + format.mantissaBitsWithoutImplicit := rfl
  have least := minExponent_nonpos format
  unfold UnpackedFloat.ofScientific
  split
  next => trivial
  next nonzero =>
    have log := log2_shiftLeft nonzero format.mantissaBits
    rw [if_neg (by omega), if_neg (by omega), if_pos le_rfl]
    change Bounded format k (roundWithAccuracy format .positive (n <<< format.mantissaBits * 1)
      (-format.mantissaBits + 0) .exact)
    rw [Nat.mul_one, Int.add_zero]
    refine roundWithAccuracy_bounded _ ?_ ⟨by omega, ?_⟩ (by omega)
    · rw [lastPlace_eq]
      omega
    · rw [Nat.shiftLeft_eq]
      exact (Nat.mul_le_mul_right _ h).trans_eq (two_pow_mul_two_pow (by omega))

/-- Natural numbers of up to 53 bits are multiplied by one, and longer ones are rounded. -/
theorem ofNat_atMost {n k : Nat} (h : n ≤ 2 ^ k) (range : k ≤ 1023) :
    DoubleAtMost k (Float.ofNat n) := by
  have least : Format.binary64.minExponent ≤ (k : Int) := (minExponent_nonpos _).trans (by omega)
  change DoubleAtMost k (Float.ofScientific n false 0)
  unfold Float.ofScientific
  split
  next short =>
    have word : n.toUInt64.toNat = n := by
      exact UInt64.toNat_ofNat_of_lt (short.1.trans (by decide))
    have whole : Bounded .binary64 k (UnpackedFloat.ofUInt64 .binary64 n.toUInt64) := by
      refine normalize_bounded .positive ?_ least
      rw [word]
      exact atMost_natCast h
    have unit : DoubleAtMost 0 (Float.ofBits 0x3FF0000000000000) := by decide
    have product := DoubleAtMost.mul (whole.double (by omega)) unit (by omega)
    rw [add_zero] at product
    exact product
  next => exact ofScientific_bounded h |>.double (by omega)

theorem ofInt_atMost {n : Int} {k : Nat} (h : n.natAbs ≤ 2 ^ k) (range : k ≤ 1023) :
    DoubleAtMost k (Float.ofInt n) := by
  cases n with
  | ofNat n => exact ofNat_atMost h range
  | negSucc n => exact (ofNat_atMost h range).neg (by omega)

theorem truncate_natAbs_le {x : Float} {k : Nat} (h : DoubleAtMost k x) :
    (truncate x).natAbs ≤ 2 ^ k := by
  unfold DoubleAtMost at h
  unfold truncate
  split
  next s m e positive unpacked =>
    rw [unpacked] at h
    obtain ⟨-, small, bound⟩ := h
    have magnitude : (if 0 ≤ e then m <<< e.toNat else m >>> (-e).toNat) ≤ 2 ^ k := by
      split
      next whole =>
        rw [Nat.shiftLeft_eq]
        exact (Nat.mul_le_mul_right _ bound).trans_eq (two_pow_mul_two_pow (by omega))
      next fraction =>
        rw [Nat.shiftRight_eq_div_pow]
        exact Nat.div_le_of_le_mul (bound.trans_eq (two_pow_mul_two_pow (by omega)).symm)
    cases s
    · exact (Int.natAbs_neg _).trans_le magnitude
    · exact magnitude
  next => exact Nat.zero_le _

end GroundPlane.Rounding
