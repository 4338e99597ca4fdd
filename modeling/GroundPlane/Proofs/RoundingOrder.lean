import Mathlib
import GroundPlane.Proofs.SingleOrder

/-!
# Rounding keeps the order

A finite float stands for a rational number (`value`). Sums and products of floats are rounded from
the sums and products of these numbers (`rounds_add`, `rounds_mul`), and what is less is never
rounded to more (`Rounds.rank_mono`): between numbers with the same last place this is how their cut
off places compare, and otherwise a power of two lies between them, which is not rounded at all. So
single precision has the inequalities of ordered fields, as far as its operations are defined. A
quotient may have no last place, but two more places than the format keeps say enough of it
(`roundWithAccuracy_eq_exact`).
-/

namespace GroundPlane

open Float.Model Float.Model.UnpackedFloat

namespace Rounding

open SinglePrecision

variable {format : Format}

/-! ## Mantissas in order -/

/-- An extended mantissa in quarters of its last place. -/
def quarters (em : ExtendedMantissa) : Nat :=
  4 * em.mantissa + 2 * em.roundBit.toNat + em.stickyBit.toNat

theorem quarters_shiftRightOne_mono {a b : ExtendedMantissa} (h : quarters a ≤ quarters b) :
    quarters a.shiftRightOne ≤ quarters b.shiftRightOne := by
  obtain ⟨m, half, rest⟩ := a
  obtain ⟨n, half', rest'⟩ := b
  have last (k : Nat) : (k % 2 != 0).toNat = k % 2 := by
    rcases Nat.mod_two_eq_zero_or_one k with even | odd
    · rw [even]
      rfl
    · rw [odd]
      rfl
  simp only [quarters, ExtendedMantissa.shiftRightOne, last] at h ⊢
  cases half <;> cases rest <;> cases half' <;> cases rest' <;>
    simp only [Bool.or_true, Bool.or_false, Bool.toNat_true, Bool.toNat_false] at h ⊢ <;>
    omega

theorem quarters_shiftRight_mono {a b : ExtendedMantissa} (h : quarters a ≤ quarters b) (k : Nat) :
    quarters (a >>> k) ≤ quarters (b >>> k) := by
  induction k with
  | zero => exact h
  | succ k ih => exact quarters_shiftRightOne_mono ih

theorem shiftRight_add (em : ExtendedMantissa) (j k : Nat) : em >>> (j + k) = (em >>> j) >>> k := by
  induction k with
  | zero => rfl
  | succ k ih => exact congrArg ExtendedMantissa.shiftRightOne ih

/-- An extended mantissa is one of two more places. -/
theorem shiftRight_quarters (em : ExtendedMantissa) :
    ExtendedMantissa.mk (quarters em) false false >>> 2 = em := by
  obtain ⟨m, half, rest⟩ := em
  change ExtendedMantissa.mk (quarters _ / 2 / 2) (quarters _ / 2 % 2 != 0)
    (quarters _ % 2 != 0 || false) = _
  cases half <;> cases rest <;> simp [quarters] <;> omega

theorem quarters_ofMantissaAndAccuracy (q : Nat) (accuracy : Accuracy) :
    ∃ r < 4, quarters (.ofMantissaAndAccuracy q accuracy) = 4 * q + r ∧
    (accuracy = .exact → r = 0) := by
  match accuracy with
  | .exact => exact ⟨0, by decide, rfl, fun _ => rfl⟩
  | .inexact .lt => exact ⟨1, by decide, rfl, nofun⟩
  | .inexact .eq => exact ⟨2, by decide, rfl, nofun⟩
  | .inexact .gt => exact ⟨3, by decide, rfl, nofun⟩

theorem roundedMantissa_mono {a b : ExtendedMantissa} (h : quarters a ≤ quarters b) :
    a.roundedMantissa ≤ b.roundedMantissa := by
  obtain ⟨m, half, rest⟩ := a
  obtain ⟨n, half', rest'⟩ := b
  simp only [quarters] at h
  cases half <;> cases rest <;> cases half' <;> cases rest' <;>
    simp only [ExtendedMantissa.roundedMantissa, ExtendedMantissa.accuracy,
      Accuracy.roundToNearestEven, Bool.toNat_true, Bool.toNat_false] at h ⊢ <;>
    omega

theorem rank_ofMantissa_le {m n : Nat} {e d : Int} (h : m ≠ 0 → n ≠ 0 ∧ (e < d ∨ e = d ∧ m ≤ n)) :
    rank (ofMantissa .positive m e) ≤ rank (ofMantissa .positive n d) := by
  unfold ofMantissa
  split
  next => split <;> simp [rank, Prod.Lex.toLex_le_toLex]
  next hm =>
    obtain ⟨hn, order⟩ := h hm
    rw [dif_neg hn]
    simpa [rank, Prod.Lex.toLex_le_toLex] using order

theorem settled_pos {r : Nat} {p : Int} (hr : r ≠ 0) (least : format.minExponent ≤ p) :
    0 < r / 2 ^ (lastPlace format r p - p).toNat :=
  Nat.div_pos ((Nat.le_log2 hr).1 (shift_le_log2 least)) (Nat.two_pow_pos _)

theorem rank_settle_mono {r t : Nat} {p : Int} (least : format.minExponent ≤ p) (h : r ≤ t) :
    rank (settle format .positive r p) ≤ rank (settle format .positive t p) := by
  have further : lastPlace format r p ≤ lastPlace format t p := by
    have length := log2_mono h
    rw [lastPlace_eq, lastPlace_eq]
    omega
  refine rank_ofMantissa_le fun positive => ?_
  have hr : r ≠ 0 := by
    rintro rfl
    exact positive (Nat.zero_div _)
  refine ⟨(settled_pos (by omega) least).ne', ?_⟩
  rcases further.lt_or_eq with less | same
  · exact .inl less
  · rw [same]
    exact .inr ⟨rfl, Nat.div_le_div_right h⟩

/-- A carry out of the lower place reaches the higher one as a power of two, which is the least
mantissa there. -/
theorem rank_settle_of_lt {r t : Nat} {p q : Int} (least : format.minExponent ≤ p) (lower : p < q)
    (short : r ≤ 2 ^ (format.mantissaBitsWithoutImplicit + 1))
    (full : 2 ^ format.mantissaBitsWithoutImplicit ≤ t) :
    rank (settle format .positive r p) ≤ rank (settle format .positive t q) := by
  have power := Nat.two_pow_pos format.mantissaBitsWithoutImplicit
  have carry := log2_le_of_le_two_pow short
  have length : format.mantissaBitsWithoutImplicit ≤ t.log2 := (Nat.le_log2 (by omega)).2 full
  have first := lastPlace_eq format r p
  have second := lastPlace_eq format t q
  refine rank_ofMantissa_le fun _ => ⟨(settled_pos (by omega) (by omega)).ne', ?_⟩
  by_cases less : lastPlace format r p < lastPlace format t q
  · exact .inl less
  · have moved : (lastPlace format r p - p).toNat = 1 := by omega
    have stays : (lastPlace format t q - q).toNat = 0 := by omega
    rw [moved, stays]
    rw [Nat.pow_succ] at short
    omega

theorem rank_roundWithAccuracy_mono {m n : Nat} {e : Int} (long : e ≤ lastPlace format m e)
    (long' : e ≤ lastPlace format n e) (h : m ≤ n) :
    rank (roundWithAccuracy format .positive m e .exact) ≤
      rank (roundWithAccuracy format .positive n e .exact) := by
  have length := log2_mono h
  have place := lastPlace_eq format m e
  have place' := lastPlace_eq format n e
  rw [roundWithAccuracy_eq _ long, roundWithAccuracy_eq _ long']
  by_cases same : lastPlace format m e = lastPlace format n e
  · rw [← same]
    apply rank_settle_mono (by omega)
    unfold roundedAt
    rw [← same]
    apply roundedMantissa_mono
    apply quarters_shiftRight_mono
    simp only [quarters]
    omega
  · have nonzero : n ≠ 0 := by
      rintro rfl
      exact same (by rw [Nat.le_zero.1 h])
    apply rank_settle_of_lt (by omega) (by omega)
    · apply roundedMantissa_le
      rw [two_pow_mul_two_pow rfl]
      exact Nat.lt_log2_self.le.trans (Nat.pow_le_pow_right two_pos (by omega))
    · refine le_trans ?_ (le_roundedAt format n e)
      rw [Nat.le_div_iff_mul_le (Nat.two_pow_pos _), two_pow_mul_two_pow rfl]
      exact (Nat.pow_le_pow_right two_pos (by omega)).trans (Nat.log2_self_le nonzero)

/-! ## Rational numbers -/

/-- The rational number that a finite float stands for. -/
def value : UnpackedFloat → ℚ
  | .finite s m e _ => (s.apply m : Int) * 2 ^ e
  | _ => 0

theorem apply_neg (s : Sign) (n : Int) : (-s).apply n = -s.apply n := by
  cases s
  · exact (Int.neg_neg n).symm
  · rfl

theorem apply_mul (s t : Sign) (m n : Int) : (s * t).apply (m * n) = s.apply m * t.apply n := by
  cases s <;> cases t
  · exact (Int.neg_mul_neg m n).symm
  · exact (Int.neg_mul m n).symm
  · exact (Int.mul_neg m n).symm
  · rfl

theorem value_neg (u : UnpackedFloat) : value u.neg = -value u := by
  cases u with
  | infinity | zero | notANumber => exact neg_zero.symm
  | finite s m e positive =>
    change (((-s).apply m : Int) : ℚ) * 2 ^ e = -((s.apply m : Int) * 2 ^ e)
    rw [apply_neg, Int.cast_neg, neg_mul]

theorem apply_shiftLeft (s : Sign) (m : Nat) {e e' : Int} (le : e' ≤ e) :
    ((s.apply (m <<< (e - e').toNat : Nat) : Int) : ℚ) * 2 ^ e' = (s.apply m : Int) * 2 ^ e := by
  have zeros : (2 : ℚ) ^ (e - e').toNat * 2 ^ e' = 2 ^ e := by
    rw [← zpow_natCast, ← zpow_add₀ two_ne_zero]
    congr 1
    omega
  rw [Nat.shiftLeft_eq, ← zeros]
  cases s <;> simp only [Sign.apply] <;> push_cast <;> ring

/-- A longer number of a format is the larger one. -/
theorem natCast_mul_le {m n : Nat} {e d : Int} (hm : lastPlace format m e = e)
    (hn : lastPlace format n d = d) (nonzero : n ≠ 0)
    (h : e < d ∨ e = d ∧ m ≤ n) : (m : ℚ) * 2 ^ e ≤ n * 2 ^ d := by
  rcases h with less | ⟨rfl, le⟩
  · rw [lastPlace_eq] at hm hn
    have common : ((n <<< (d - e).toNat : Nat) : ℚ) * 2 ^ e = n * 2 ^ d :=
      apply_shiftLeft .positive n less.le
    have length : m ≤ n <<< (d - e).toNat := by
      calc m ≤ 2 ^ (format.mantissaBitsWithoutImplicit + 1) :=
            Nat.lt_log2_self.le.trans (Nat.pow_le_pow_right two_pos (by omega))
        _ ≤ 2 ^ (n.log2 + (d - e).toNat) := Nat.pow_le_pow_right two_pos (by omega)
        _ ≤ n <<< (d - e).toNat := by
            rw [Nat.pow_add, Nat.shiftLeft_eq]
            exact Nat.mul_le_mul_right _ (Nat.log2_self_le nonzero)
    rw [← common]
    gcongr
  · gcongr

theorem value_le_of_rank_le {u v : UnpackedFloat} {i j : Int} (hu : Bounded format i u)
    (hv : Bounded format j v) (h : rank u ≤ rank v) : value u ≤ value v := by
  have nonneg (m : Nat) (e : Int) : (0 : ℚ) ≤ m * 2 ^ e := by positivity
  cases u with
  | infinity | notANumber => exact hu.elim
  | zero s =>
    cases v with
    | infinity | notANumber => exact hv.elim
    | zero => exact le_rfl
    | finite t n d positive' =>
      cases t with
      | positive => exact nonneg n d
      | negative => simp [rank, Prod.Lex.toLex_le_toLex] at h
  | finite s m e positive =>
    cases v with
    | infinity | notANumber => exact hv.elim
    | zero =>
      cases s with
      | positive => simp [rank, Prod.Lex.toLex_le_toLex] at h
      | negative => simpa [value, Sign.apply] using nonneg m e
    | finite t n d positive' =>
      cases s <;> cases t <;> simp [rank, Prod.Lex.toLex_le_toLex] at h
      · simpa [value, Sign.apply] using natCast_mul_le hv.1 hu.1 positive.ne' (by omega)
      · have below : -((m : ℚ) * 2 ^ e) ≤ n * 2 ^ d :=
          (neg_nonpos.2 (nonneg m e)).trans (nonneg n d)
        simpa [value, Sign.apply] using below
      · simpa [value, Sign.apply] using natCast_mul_le hu.1 hv.1 positive'.ne' (by omega)

/-! ## Rounded numbers -/

/-- A rational number with finitely many binary places, and a float that it is rounded to. -/
inductive Rounds (format : Format) : ℚ → UnpackedFloat → Prop
  | zero (s : Sign) : Rounds format 0 (.zero s)
  | cut (s : Sign) {m : Nat} {e : Int} (nonzero : m ≠ 0) (long : e ≤ lastPlace format m e) :
      Rounds format ((s.apply m : Int) * 2 ^ e) (roundWithAccuracy format s m e .exact)

/-- Only the number counts: zeros may be appended. -/
theorem roundWithAccuracy_shiftLeft (s : Sign) {m : Nat} {e e' : Int} (hm : m ≠ 0)
    (long : e ≤ lastPlace format m e) (le : e' ≤ e) :
    roundWithAccuracy format s (m <<< (e - e').toNat) e' .exact =
      roundWithAccuracy format s m e .exact := by
  have place := lastPlace_shiftLeft format hm le
  have same : roundedAt format (m <<< (e - e').toNat) e' = roundedAt format m e := by
    unfold roundedAt
    rw [place,
      show (lastPlace format m e - e').toNat = (e - e').toNat + (lastPlace format m e - e).toNat by
        omega,
      shiftRight_add, Nat.shiftLeft_eq, shiftRight_exact]
  rw [roundWithAccuracy_eq s (by omega), roundWithAccuracy_eq s long, place, same]

namespace Rounds

variable {x y : ℚ} {u v : UnpackedFloat}

theorem neg (h : Rounds format x u) : Rounds format (-x) u.neg := by
  cases h with
  | zero s =>
    rw [neg_zero]
    exact .zero (-s)
  | cut s nonzero long =>
    have sign (s : Sign) (m : Nat) (e : Int) : ofMantissa (-s) m e = (ofMantissa s m e).neg := by
      unfold ofMantissa
      split <;> rfl
    have opposite : Rounds format _ _ := cut (-s) nonzero long
    rw [apply_neg, Int.cast_neg, neg_mul, roundWithAccuracy_eq _ long] at opposite
    rw [roundWithAccuracy_eq _ long, settle, ← sign]
    exact opposite

theorem exists_of_pos (h : Rounds format x u) (positive : 0 < x) :
    ∃ m e, m ≠ 0 ∧ e ≤ lastPlace format m e ∧ x = m * 2 ^ e ∧
    u = roundWithAccuracy format .positive m e .exact := by
  cases h with
  | zero => exact absurd positive (lt_irrefl 0)
  | @cut s m e nonzero long =>
    cases s with
    | negative =>
      have magnitude : (0 : ℚ) ≤ m * 2 ^ e := by positivity
      simp only [Sign.apply, Int.cast_neg, Int.cast_natCast, neg_mul, Left.neg_pos_iff] at positive
      exact absurd positive magnitude.not_gt
    | positive => exact ⟨m, e, nonzero, long, rfl, rfl⟩

theorem rank_of_zero (h : Rounds format 0 u) : rank u = 0 := by
  generalize zero : (0 : ℚ) = x at h
  cases h with
  | zero => rfl
  | @cut s m e nonzero long =>
    have power : (2 : ℚ) ^ e ≠ 0 := by positivity
    cases s <;> simp [Sign.apply, nonzero, power] at zero

theorem rank_nonneg (h : Rounds format x u) (nonneg : 0 ≤ x) : 0 ≤ rank u := by
  rcases nonneg.eq_or_lt with rfl | positive
  · exact h.rank_of_zero.ge
  · obtain ⟨m, e, -, long, -, rfl⟩ := h.exists_of_pos positive
    rw [roundWithAccuracy_eq _ long]
    exact rank_ofMantissa_le (m := 0) (e := 0) fun nonzero => absurd rfl nonzero

theorem rank_le_of_nonneg (hu : Rounds format x u) (hv : Rounds format y v) (nonneg : 0 ≤ x)
    (h : x ≤ y) : rank u ≤ rank v := by
  rcases nonneg.eq_or_lt with rfl | positive
  · exact hu.rank_of_zero.trans_le (hv.rank_nonneg h)
  · obtain ⟨m, e, hm, long, rfl, rfl⟩ := hu.exists_of_pos positive
    obtain ⟨n, d, hn, long', rfl, rfl⟩ := hv.exists_of_pos (positive.trans_le h)
    -- both numbers are written down to the lower of their last places, where their mantissas
    -- compare
    have left : ((m <<< (e - min e d).toNat : Nat) : ℚ) * 2 ^ min e d = m * 2 ^ e :=
      apply_shiftLeft .positive m (min_le_left e d)
    have right : ((n <<< (d - min e d).toNat : Nat) : ℚ) * 2 ^ min e d = n * 2 ^ d :=
      apply_shiftLeft .positive n (min_le_right e d)
    have common : m <<< (e - min e d).toNat ≤ n <<< (d - min e d).toNat := by
      rw [← left, ← right] at h
      exact Nat.cast_le.1 (le_of_mul_le_mul_right h (by positivity))
    rw [← roundWithAccuracy_shiftLeft _ hm long (min_le_left e d),
      ← roundWithAccuracy_shiftLeft _ hn long' (min_le_right e d)]
    apply rank_roundWithAccuracy_mono _ _ common
    · rw [lastPlace_shiftLeft format hm (min_le_left e d)]
      exact (min_le_left e d).trans long
    · rw [lastPlace_shiftLeft format hn (min_le_right e d)]
      exact (min_le_right e d).trans long'

theorem rank_mono (hu : Rounds format x u) (hv : Rounds format y v) (h : x ≤ y) :
    rank u ≤ rank v := by
  rcases le_total 0 x with nonneg | nonpos
  · exact hu.rank_le_of_nonneg hv nonneg h
  · rcases le_total 0 y with nonneg' | nonpos'
    · have below := hu.neg.rank_nonneg (neg_nonneg.2 nonpos)
      rw [rank_neg] at below
      exact (neg_nonneg.1 below).trans (hv.rank_nonneg nonneg')
    · have opposite := hv.neg.rank_le_of_nonneg hu.neg (neg_nonneg.2 nonpos') (neg_le_neg h)
      rw [rank_neg, rank_neg] at opposite
      exact neg_le_neg_iff.1 opposite

theorem exists_bounded (h : Rounds format x u) : ∃ k, Bounded format k u := by
  cases h with
  | zero => exact ⟨0, trivial⟩
  | @cut s m e nonzero long =>
    refine ⟨max (e + m.log2 + 1) format.minExponent,
      roundWithAccuracy_bounded s long ⟨by omega, ?_⟩ (le_max_right _ _)⟩
    exact Nat.lt_log2_self.le.trans (Nat.pow_le_pow_right two_pos (by omega))

end Rounds

/-! ## Operations -/

theorem rounds_self {u : UnpackedFloat} {k : Int} (bounded : Bounded format k u) :
    Rounds format (value u) u := by
  cases u with
  | infinity | notANumber => exact bounded.elim
  | zero s => exact .zero s
  | finite s m e positive =>
    have place := bounded.1
    have same : roundedAt format m e = m := by
      unfold roundedAt
      rw [place, sub_self]
      rfl
    have kept : roundWithAccuracy format s m e .exact = .finite s m e positive := by
      rw [roundWithAccuracy_eq s place.ge, place, same, settle, place, sub_self, Int.toNat_zero,
        Nat.pow_zero, Nat.div_one, ofMantissa_of_pos positive]
    have rounds : Rounds format _ _ := .cut s positive.ne' place.ge
    rwa [kept] at rounds

theorem rounds_round (s : Sign) {m : Nat} (e : Int) (nonzero : m ≠ 0) :
    Rounds format ((s.apply m : Int) * 2 ^ e) (UnpackedFloat.round format s m e) := by
  rw [round_eq, ← apply_shiftLeft s m (min_le_left e (lastPlace format m e))]
  apply Rounds.cut
  · simpa [Nat.shiftLeft_eq] using nonzero
  · rw [lastPlace_shiftLeft format nonzero (min_le_left _ _)]
    exact min_le_right _ _

theorem rounds_normalize (n e : Int) (z : Sign) :
    Rounds format (n * 2 ^ e) (UnpackedFloat.normalize format n e z) := by
  unfold UnpackedFloat.normalize
  split
  next negative =>
    rw [Int.compare_eq_lt] at negative
    have rounds : Rounds format _ _ := rounds_round .negative (m := (-n).toNat) e (by omega)
    change Rounds format ((-((-n).toNat : Int) : Int) * 2 ^ e) _ at rounds
    rwa [show -((-n).toNat : Int) = n by omega] at rounds
  next zero =>
    rw [Int.compare_eq_eq] at zero
    rw [zero, Int.cast_zero, zero_mul]
    exact .zero z
  next positive =>
    rw [Int.compare_eq_gt] at positive
    have rounds : Rounds format _ _ := rounds_round .positive (m := n.toNat) e (by omega)
    change Rounds format ((n.toNat : Int) * 2 ^ e) _ at rounds
    rwa [show (n.toNat : Int) = n by omega] at rounds

section Operations

variable {a b : UnpackedFloat} {i j : Int}

theorem rounds_add (ha : Bounded format i a) (hb : Bounded format j b) :
    Rounds format (value a + value b) (UnpackedFloat.add format a b) := by
  cases a with
  | infinity | notANumber => exact ha.elim
  | zero s =>
    change Rounds format (0 + value b) _
    rw [zero_add]
    cases b with
    | infinity | notANumber => exact hb.elim
    | zero t => cases s <;> cases t <;> exact .zero _
    | finite => exact rounds_self hb
  | finite s m e positive =>
    cases b with
    | infinity | notANumber => exact hb.elim
    | zero =>
      change Rounds format (_ + 0) _
      rw [add_zero]
      exact rounds_self ha
    | finite t n d positive' =>
      change Rounds format ((s.apply m : Int) * 2 ^ e + (t.apply n : Int) * 2 ^ d) _
      rw [← apply_shiftLeft s m (min_le_left e d), ← apply_shiftLeft t n (min_le_right e d),
        ← add_mul, ← Int.cast_add]
      exact rounds_normalize _ _ _

theorem rounds_sub (ha : Bounded format i a) (hb : Bounded format j b) :
    Rounds format (value a - value b) (UnpackedFloat.sub format a b) := by
  rw [unpackedSub_eq, sub_eq_add_neg, ← value_neg]
  exact rounds_add ha hb.neg

theorem rounds_mul (ha : Bounded format i a) (hb : Bounded format j b) :
    Rounds format (value a * value b) (UnpackedFloat.mul format a b) := by
  cases a with
  | infinity | notANumber => exact ha.elim
  | zero s =>
    change Rounds format (0 * value b) _
    rw [zero_mul]
    cases b with
    | infinity | notANumber => exact hb.elim
    | zero | finite => exact .zero _
  | finite s m e positive =>
    cases b with
    | infinity | notANumber => exact hb.elim
    | zero =>
      change Rounds format (_ * 0) _
      rw [mul_zero]
      exact .zero _
    | finite t n d positive' =>
      have length := log2_le_log2_mul positive.ne' positive'.ne'
      have low := minExponent_nonpos format
      have place := ha.1
      have place' := hb.1
      have product : value (.finite s m e positive) * value (.finite t n d positive') =
          ((s * t).apply (m * n : Nat) : Int) * 2 ^ (e + d) := by
        rw [Nat.cast_mul, apply_mul, Int.cast_mul, zpow_add₀ two_ne_zero]
        exact mul_mul_mul_comm _ _ _ _
      rw [product]
      apply Rounds.cut _ (Nat.mul_pos positive positive').ne'
      rw [lastPlace_eq] at place place' ⊢
      omega

end Operations

/-! ## Quotients -/

/-- A number that is not exact is rounded like one of two more places. -/
theorem roundWithAccuracy_eq_exact (s : Sign) {q : Nat} {e : Int} (accuracy : Accuracy)
    (long : e ≤ lastPlace format q e) (kept : q ≠ 0 ∨ e ≤ format.minExponent) :
    ∃ r < 4, (accuracy = .exact → r = 0) ∧ e - 2 ≤ lastPlace format (4 * q + r) (e - 2) ∧
      roundWithAccuracy format s q e accuracy =
        roundWithAccuracy format s (4 * q + r) (e - 2) .exact := by
  obtain ⟨r, small, more, exact⟩ := quarters_ofMantissaAndAccuracy q accuracy
  -- The two new places make the mantissa longer by as much as they lower its exponent.
  have place : lastPlace format (4 * q + r) (e - 2) = lastPlace format q e := by
    have cut := log2_div_two_pow (4 * q + r) 2
    rw [show (4 * q + r) / 2 ^ 2 = q by omega] at cut
    rw [lastPlace_eq, lastPlace_eq]
    rcases kept with nonzero | least
    · have length : 2 ≤ (4 * q + r).log2 := (Nat.le_log2 (by omega)).2 (by omega)
      omega
    · omega
  refine ⟨r, small, exact, by omega, ?_⟩
  have first :
      shiftToTargetExponent format q e accuracy =
        shiftToTargetExponent format (4 * q + r) (e - 2) .exact := by
    rw [shiftToTargetExponent_eq (by omega), place,
      show (lastPlace format q e - (e - 2)).toNat = 2 + (lastPlace format q e - e).toNat by
        omega, shiftRight_add,
      ← more, shiftRight_quarters]
    change (_, e + ((lastPlace format q e - e).toNat : Int)) = _
    rw [show e + ((lastPlace format q e - e).toNat : Int) = lastPlace format q e by omega]
    rfl
  unfold roundWithAccuracy
  rw [first]

variable (format) in
/-- The whole part of a quotient is long enough for the format. -/
theorem divCore_long {m n : Nat} (e d : Int) (hm : m ≠ 0) (hn : n ≠ 0) :
    let core := divCore format m e n d
    core.2.1 ≤ lastPlace format core.1 core.2.1 ∧ (core.1 ≠ 0 ∨ core.2.1 ≤ format.minExponent) := by
  intro core
  have place : core.2.1 = min (e - d)
      (max (m.log2 + e - (n.log2 + d) - (format.mantissaBitsWithoutImplicit + 1))
        format.minExponent) := by
    change min (e - d) (format.targetExponent (totalExponent m e - totalExponent n d)) = _
    unfold Format.targetExponent totalExponent Format.mantissaBits
    omega
  rw [lastPlace_eq]
  by_cases least : core.2.1 ≤ format.minExponent
  · exact ⟨by omega, .inr least⟩
  · have length : (m <<< (e - d - core.2.1).toNat).log2 = m.log2 + (e - d - core.2.1).toNat :=
      log2_shiftLeft hm _
    have quotient : (m <<< (e - d - core.2.1).toNat) / 2 ^ (n.log2 + 1) ≤ core.1 :=
      Nat.div_le_div_left Nat.lt_log2_self.le (Nat.pos_of_ne_zero hn)
    have whole := log2_mono quotient
    rw [log2_div_two_pow] at whole
    have positive : 0 < (m <<< (e - d - core.2.1).toNat) / 2 ^ (n.log2 + 1) :=
      Nat.div_pos ((Nat.le_log2 (by simpa [Nat.shiftLeft_eq] using hm)).1 (by omega))
        (Nat.two_pow_pos _)
    exact ⟨by omega, .inl (by omega)⟩

theorem natCast_mul_le_iff {m n : Nat} {p : Int} (nonpos : p ≤ 0) :
    (m : ℚ) * 2 ^ p ≤ n ↔ m ≤ n * 2 ^ (-p).toNat := by
  have power : (2 : ℚ) ^ p = ((2 ^ (-p).toNat : Nat) : ℚ)⁻¹ := by
    rw [Nat.cast_pow, Nat.cast_ofNat, ← zpow_natCast, Int.toNat_of_nonneg (by omega), zpow_neg,
      inv_inv]
  rw [power, ← div_eq_mul_inv, div_le_iff₀ (by positivity), ← Nat.cast_mul, Nat.cast_le]

variable (format) in
/-- A dividend that is not above the divisor, at the place where it is divided. -/
theorem divCore_dividend_le {m n : Nat} {e d : Int} (h : (m : ℚ) * 2 ^ e ≤ n * 2 ^ d) :
    let place := (divCore format m e n d).2.1
    ((m <<< (e - d - place).toNat : Nat) : ℚ) * 2 ^ place ≤ n := by
  intro place
  have shifted : ((m <<< (e - d - place).toNat : Nat) : ℚ) * 2 ^ place = m * 2 ^ (e - d) :=
    apply_shiftLeft .positive m (min_le_left _ _)
  rw [shifted, zpow_sub₀ two_ne_zero, ← mul_div_assoc]
  exact (div_le_iff₀ (by positivity)).2 h

variable (format) in
/-- A quotient that is not above one has its places after the point. -/
theorem divCore_nonpos {m n : Nat} {e d : Int} (hm : 0 < m) (hn : 0 < n)
    (h : (m : ℚ) * 2 ^ e ≤ n * 2 ^ d) : (divCore format m e n d).2.1 ≤ 0 := by
  have least := minExponent_nonpos format
  have dividend := divCore_dividend_le format h
  rcases (divCore_long format e d hm.ne' hn.ne').2 with whole | small
  · -- A whole part above the point would make the quotient two at least.
    by_contra positive
    change (m <<< (e - d - (divCore format m e n d).2.1).toNat) / n ≠ 0 at whole
    generalize (divCore format m e n d).2.1 = p at *
    have enough : n ≤ m <<< (e - d - p).toNat := by
      by_contra less
      exact whole (Nat.div_eq_of_lt (not_le.1 less))
    have double : (1 : ℚ) < 2 ^ p := one_lt_zpow₀ one_lt_two (by omega)
    have above : (n : ℚ) < (m <<< (e - d - p).toNat : Nat) * 2 ^ p :=
      calc (n : ℚ)
        _ < n * 2 ^ p := lt_mul_of_one_lt_right (Nat.cast_pos.2 hn) double
        _ ≤ (m <<< (e - d - p).toNat : Nat) * 2 ^ p := by gcongr
    exact above.not_ge dividend
  · exact small.trans least

variable (format) in
/-- The whole part of a quotient that is not above one, and is one only if it is exact. -/
theorem divCore_of_le {m n : Nat} {e d : Int} (hm : 0 < m) (hn : 0 < n)
    (h : (m : ℚ) * 2 ^ e ≤ n * 2 ^ d) :
    let core := divCore format m e n d
    core.1 ≤ 2 ^ (-core.2.1).toNat ∧ (core.2.2 ≠ .exact → core.1 < 2 ^ (-core.2.1).toNat) := by
  intro core
  have bound :=
    (natCast_mul_le_iff (divCore_nonpos format hm hn h)).1 (divCore_dividend_le format h)
  refine ⟨Nat.div_le_of_le_mul bound, fun inexact => ?_⟩
  refine Nat.div_lt_of_lt_mul (bound.lt_of_ne fun equal => inexact ?_)
  change accuracyOfFraction ((m <<< (e - d - core.2.1).toNat) % n) n = .exact
  rw [equal, Nat.mul_mod_right]
  rfl

theorem roundWithAccuracy_zero (s : Sign) {e : Int} (long : e ≤ lastPlace format 0 e) :
    roundWithAccuracy format s 0 e .exact = .zero s := by
  have rounded : roundedAt format 0 e = 0 := Nat.le_zero.1 (roundedMantissa_le (Nat.zero_le _))
  rw [roundWithAccuracy_eq s long, rounded, settle, Nat.zero_div]
  rfl

/-- A share of a whole is rounded from a number that is not above one. -/
theorem rounds_div_of_le {m n : Nat} {e d : Int} (hm : 0 < m) (hn : 0 < n)
    (h : (m : ℚ) * 2 ^ e ≤ n * 2 ^ d) :
    ∃ x : ℚ, 0 ≤ x ∧ x ≤ 1 ∧
      Rounds format x
        (UnpackedFloat.div format (.finite .positive m e hm) (.finite .positive n d hn)) := by
  obtain ⟨long, kept⟩ := divCore_long format e d hm.ne' hn.ne'
  have nonpos := divCore_nonpos format hm hn h
  obtain ⟨whole, strict⟩ := divCore_of_le format hm hn h
  obtain ⟨r, small, exact, long', rounded⟩ :=
    roundWithAccuracy_eq_exact .positive (divCore format m e n d).2.2 long kept
  change ∃ x : ℚ, 0 ≤ x ∧ x ≤ 1 ∧
    Rounds format x (roundWithAccuracy format .positive (divCore format m e n d).1
      (divCore format m e n d).2.1 (divCore format m e n d).2.2)
  rw [rounded]
  generalize (divCore format m e n d).1 = q, (divCore format m e n d).2.1 = p,
    (divCore format m e n d).2.2 = accuracy at *
  have bound : 4 * q + r ≤ 1 * 2 ^ (-(p - 2)).toNat := by
    rw [show (-(p - 2)).toNat = (-p).toNat + 2 by omega, Nat.pow_add]
    by_cases sharp : accuracy = .exact
    · have := exact sharp
      omega
    · have := strict sharp
      omega
  by_cases zero : 4 * q + r = 0
  · rw [zero] at long' ⊢
    rw [roundWithAccuracy_zero _ long']
    exact ⟨0, le_rfl, zero_le_one, .zero _⟩
  · refine ⟨_, ?_, ?_, .cut .positive zero long'⟩
    · change (0 : ℚ) ≤ (4 * q + r : Nat) * 2 ^ (p - 2)
      positivity
    · have below := (natCast_mul_le_iff (by omega)).2 bound
      rwa [Nat.cast_one] at below

end Rounding

namespace SinglePrecision

open Rounding

/-! ## Single precision -/

theorem unpack_pack_finite {s : Sign} {m : Nat} {e k : Int} {positive : 0 < m}
    (bounded : Bounded .binary32 k (.finite s m e positive)) :
    UnpackedFloat.unpack .binary32 (UnpackedFloat.pack .binary32 (.finite s m e positive)) =
      if e < 105 then .finite s m e positive else .infinity s := by
  have range :
      (e + Format.binary32.exponentBias + Format.binary32.mantissaBitsWithoutImplicit).toNat + 1 <
      2 ^ Format.binary32.exponentBits ↔ e < 105 := by
    change (e + (127 : Nat) + (23 : Nat)).toNat + 1 < 256 ↔ _
    omega
  split
  next within => exact Representable.unpack_pack (u := .finite s m e positive) ⟨bounded.1,
    range.2 within⟩ (by decide)
  next beyond => exact unpack_pack_overflow s positive (mt range.1 beyond)

/-- Numbers that are out of range become infinite, which keeps the order too. -/
theorem rank_unpack_pack_mono {u v : UnpackedFloat} {i j : Int} (hu : Bounded .binary32 i u)
    (hv : Bounded .binary32 j v) (h : rank u ≤ rank v) :
    rank (UnpackedFloat.unpack .binary32 (UnpackedFloat.pack .binary32 u)) ≤
      rank (UnpackedFloat.unpack .binary32 (UnpackedFloat.pack .binary32 v)) := by
  cases u with
  | infinity | notANumber => exact hu.elim
  | zero s =>
    rw [unpack_pack_zero]
    cases v with
    | infinity | notANumber => exact hv.elim
    | zero t => rw [unpack_pack_zero]; exact h
    | finite t n d positive' =>
      rw [unpack_pack_finite hv]
      cases t <;> split <;> simp [rank, Prod.Lex.toLex_le_toLex] at h ⊢
  | finite s m e positive =>
    rw [unpack_pack_finite hu]
    cases v with
    | infinity | notANumber => exact hv.elim
    | zero t =>
      rw [unpack_pack_zero]
      cases s <;> split <;> simp [rank, Prod.Lex.toLex_le_toLex] at h ⊢
    | finite t n d positive' =>
      rw [unpack_pack_finite hv]
      cases s <;> cases t <;> split <;> split <;> simp [rank, Prod.Lex.toLex_le_toLex] at h ⊢ <;>
        omega

variable {x y z : Float32} {p q : ℚ}

/-- The rational number that a finite number of single precision stands for. -/
def toRat (x : Float32) : ℚ :=
  value x.toModel.unpack

/-- A rational number and the number of single precision that it is rounded to, infinite if it is
out of range. -/
def IsRounded (p : ℚ) (x : Float32) : Prop :=
  ∃ u, Rounds .binary32 p u ∧
    x.toModel.unpack = UnpackedFloat.unpack .binary32 (UnpackedFloat.pack .binary32 u)

theorem IsRounded.isNaN (h : IsRounded p x) : x.isNaN = false := by
  obtain ⟨u, rounds, unpacked⟩ := h
  obtain ⟨k, bounded⟩ := rounds.exists_bounded
  change x.toModel.unpack.isNaN = false
  rw [unpacked, isNaN_unpack_pack]
  cases u with
  | infinity | notANumber => exact bounded.elim
  | zero | finite => rfl

theorem IsRounded.le (hx : IsRounded p x) (hy : IsRounded q y) (h : p ≤ q) : x ≤ y := by
  refine le_iff.2 ⟨hx.isNaN, hy.isNaN, ?_⟩
  obtain ⟨u, rounds, unpacked⟩ := hx
  obtain ⟨v, rounds', unpacked'⟩ := hy
  obtain ⟨i, bounded⟩ := rounds.exists_bounded
  obtain ⟨j, bounded'⟩ := rounds'.exists_bounded
  rw [unpacked, unpacked']
  exact rank_unpack_pack_mono bounded bounded' (rounds.rank_mono rounds' h)

theorem toRat_le (hx : x.isFinite) (hy : y.isFinite) (h : x ≤ y) : toRat x ≤ toRat y :=
  value_le_of_rank_le (singleAtMost_of_isFinite hx) (singleAtMost_of_isFinite hy) (le_iff.1 h).2.2

theorem isRounded_toRat (hx : x.isFinite) : IsRounded (toRat x) x :=
  ⟨_, rounds_self (singleAtMost_of_isFinite hx), (unpack_pack_of_abs rfl).symm⟩

theorem isRounded_add (hx : x.isFinite) (hy : y.isFinite) : IsRounded (toRat x + toRat y) (x + y) :=
  ⟨_, rounds_add (singleAtMost_of_isFinite hx) (singleAtMost_of_isFinite hy), rfl⟩

theorem isRounded_sub (hx : x.isFinite) (hy : y.isFinite) : IsRounded (toRat x - toRat y) (x - y) :=
  ⟨_, rounds_sub (singleAtMost_of_isFinite hx) (singleAtMost_of_isFinite hy), rfl⟩

theorem isRounded_mul (hx : x.isFinite) (hy : y.isFinite) : IsRounded (toRat x * toRat y) (x * y) :=
  ⟨_, rounds_mul (singleAtMost_of_isFinite hx) (singleAtMost_of_isFinite hy), rfl⟩

theorem toRat_zero : toRat 0 = 0 := rfl

theorem toRat_one : toRat 1 = 1 := by
  change ((2 ^ 23 : Nat) : ℚ) * 2 ^ (-23 : Int) = 1
  norm_num

theorem toRat_two : toRat 2.0 = 2 := by
  change ((2 ^ 23 : Nat) : ℚ) * 2 ^ (-22 : Int) = 2
  norm_num

theorem toRat_half : toRat 0.5 = 1 / 2 := by
  change ((2 ^ 23 : Nat) : ℚ) * 2 ^ (-24 : Int) = 1 / 2
  norm_num

theorem toRat_nonneg (finite : x.isFinite) (nonneg : 0 ≤ x) : 0 ≤ toRat x :=
  toRat_le rfl finite nonneg

protected theorem mul_le_mul_right (hx : x.isFinite) (hy : y.isFinite) (hz : z.isFinite)
    (nonneg : 0 ≤ z) (h : x ≤ y) : x * z ≤ y * z :=
  (isRounded_mul hx hz).le (isRounded_mul hy hz)
    (mul_le_mul_of_nonneg_right (toRat_le hx hy h) (toRat_nonneg hz nonneg))

theorem isRounded_toFloat32 (n : UInt64) : IsRounded n.toNat n.toFloat32 := by
  have rounds : Rounds .binary32 (n.toNat * 2 ^ (0 : Int)) (.ofUInt64 .binary32 n) :=
    rounds_normalize (n.toNat : Int) 0 .positive
  rw [zpow_zero, mul_one] at rounds
  exact ⟨_, rounds, rfl⟩

/-- Natural numbers that fit the mantissa are converted in order. -/
theorem natCast_le_natCast {m n : Nat} (h : m ≤ n) (short : n < 2 ^ 23) :
    (m : Float32) ≤ (n : Float32) := by
  have convert {k : Nat} (hk : k < 2 ^ 23) :
      (k : Float32) = k.toUInt64.toFloat32 * 1 ∧ IsRounded k k.toUInt64.toFloat32 := by
    have word : k.toUInt64.toNat = k := UInt64.toNat_ofNat_of_lt (hk.trans (by decide))
    have rounded := isRounded_toFloat32 k.toUInt64
    rw [word] at rounded
    exact ⟨dif_pos ⟨hk, by decide⟩, rounded⟩
  have top : IsRounded (2 ^ 23 - 1 : Nat) (2 ^ 23 - 1 : Nat).toUInt64.toFloat32 :=
    (convert (by decide)).2
  have finite {k : Nat} (hk : k < 2 ^ 23) : k.toUInt64.toFloat32.isFinite := by
    have above : 0 ≤ k.toUInt64.toFloat32 :=
      (isRounded_toRat rfl).le (convert hk).2 (by rw [toRat_zero]; positivity)
    have below : k.toUInt64.toFloat32 ≤ (2 ^ 23 - 1 : Nat).toUInt64.toFloat32 :=
      (convert hk).2.le top (by exact_mod_cast Nat.le_pred_of_lt hk)
    exact isFinite_of_mem rfl (by decide) above below
  rw [(convert (h.trans_lt short)).1, (convert short).1]
  exact SinglePrecision.mul_le_mul_right (finite (h.trans_lt short)) (finite short) rfl (by decide)
    ((convert (h.trans_lt short)).2.le (convert short).2 (by exact_mod_cast h))

theorem unpack_of_nonneg (finite : x.isFinite) (nonneg : 0 ≤ x) :
    (∃ s, x.toModel.unpack = .zero s) ∨ ∃ m e positive,
    x.toModel.unpack = .finite .positive m e positive := by
  have order := (le_iff.1 nonneg).2.2
  change rank (.zero .positive) ≤ rank x.toModel.unpack at order
  change x.toModel.unpack.isFinite = true at finite
  cases unpacked : x.toModel.unpack with
  | notANumber | infinity =>
    rw [unpacked] at finite
    cases finite
  | zero s => exact .inl ⟨s, rfl⟩
  | finite s m e positive =>
    cases s with
    | negative =>
      rw [unpacked] at order
      simp [rank, Prod.Lex.toLex_le_toLex] at order
    | positive => exact .inr ⟨m, e, positive, rfl⟩

/-- A share of a whole is between zero and one. -/
theorem share_mem (nonneg : 0 ≤ x) (le : x ≤ y) (positive : 0 < y) (finite : y.isFinite) :
    0 ≤ x / y ∧ x / y ≤ 1 := by
  have hx : x.isFinite := isFinite_of_mem rfl finite nonneg le
  obtain ⟨p, hp, hp', rounds⟩ : ∃ p : ℚ, 0 ≤ p ∧ p ≤ 1 ∧
      Rounds .binary32 p (.div .binary32 x.toModel.unpack y.toModel.unpack) := by
    have small : value x.toModel.unpack ≤ value y.toModel.unpack := toRat_le hx finite le
    rcases pos_iff.1 positive with ⟨n, d, hn, whole⟩ | infinite
    · rw [whole] at small ⊢
      rcases unpack_of_nonneg hx nonneg with ⟨s, zero⟩ | ⟨m, e, hm, share⟩
      · rw [zero]
        exact ⟨0, le_rfl, zero_le_one, .zero _⟩
      · rw [share] at small ⊢
        exact rounds_div_of_le hm hn small
    · change y.toModel.unpack.isFinite = true at finite
      rw [infinite] at finite
      cases finite
  have rounded : IsRounded p (x / y) := ⟨_, rounds, rfl⟩
  exact ⟨(isRounded_toRat rfl).le rounded hp,
    rounded.le (isRounded_toRat rfl) (hp'.trans_eq toRat_one.symm)⟩

end SinglePrecision

end GroundPlane
