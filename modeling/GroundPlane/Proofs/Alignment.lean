import Mathlib
import GroundPlane.Gpu.Block
import GroundPlane.Proofs.UniformBlocks

/-!
# Alignment

A size is aligned by adding the alignment less one and clearing the low bits. In words that wrap
around this gives the least multiple of the alignment that is not below the size, as long as that
multiple is a word. The sum with the whole alignment, which comes first, may already leave the
words, and then the checked function has no answer (`alignTo_rounds_up_unless_sum_full`).
-/

namespace GroundPlane.Gpu

/-! ## Least multiples -/

theorem isLeast_roundUp {alignment : Nat} (positive : 0 < alignment) (offset : Nat) :
    IsLeast {s : Nat | alignment ∣ s ∧ offset ≤ s} (roundUp offset alignment) := by
  have quotient : roundUp offset alignment = offset ⌈/⌉ alignment * alignment := by
    rw [Nat.ceilDiv_eq_add_pred_div]
    rfl
  rw [quotient]
  refine ⟨⟨Nat.dvd_mul_left _ _, ?_⟩, ?_⟩
  · rw [Nat.mul_comm]
    exact (ceilDiv_le_iff_le_mul positive).1 le_rfl
  · rintro s ⟨⟨m, rfl⟩, reaches⟩
    rw [Nat.mul_comm alignment]
    exact Nat.mul_le_mul_right _ ((ceilDiv_le_iff_le_mul positive).2 reaches)

section

variable {alignment size s : Nat} (least : IsLeast {m : Nat | alignment ∣ m ∧ size ≤ m} s)

include least

theorem lt_add_of_isLeast (positive : 0 < alignment) : s < size + alignment := by
  obtain ⟨⟨multiple, above⟩, lowest⟩ := least
  by_contra far
  -- Otherwise the multiple before it is not below the size either.
  have before : s ≤ s - alignment := lowest ⟨Nat.dvd_sub multiple dvd_rfl, by omega⟩
  omega

theorem le_of_isLeast {larger t : Nat} (le : size ≤ larger)
    (next : IsLeast {m : Nat | alignment ∣ m ∧ larger ≤ m} t) : s ≤ t :=
  least.2 ⟨next.1.1, le.trans next.1.2⟩

end

/-! ## Words -/

/-- Clearing the low bits of a word rounds it down. -/
theorem toNat_and_not {w mask : UInt64} {k : Nat} (low : mask.toNat = 2 ^ k - 1) :
    (w &&& ~~~mask).toNat = w.toNat / 2 ^ k * 2 ^ k := by
  have short : k ≤ 64 := by
    have bound := mask.toNat_lt
    by_contra long
    have large : 2 ^ 65 ≤ 2 ^ k := Nat.pow_le_pow_right (by decide) (by omega)
    omega
  rw [UInt64.toNat_and, UInt64.toNat_not, low, ← Nat.shiftRight_eq_div_pow, ← Nat.shiftLeft_eq]
  have cleared : UInt64.size - 1 - (2 ^ k - 1) = 2 ^ 64 - (2 ^ k - 1 + 1) := by
    have size : UInt64.size = 2 ^ 64 := rfl
    omega
  have below : 2 ^ k - 1 < 2 ^ 64 := by
    have := Nat.pow_le_pow_right (n := 2) (by decide) short
    have := Nat.two_pow_pos k
    omega
  apply Nat.eq_of_testBit_eq
  intro i
  rw [cleared, Nat.testBit_and, Nat.testBit_two_pow_sub_succ below, Nat.testBit_two_pow_sub_one,
    Nat.testBit_shiftLeft, Nat.testBit_shiftRight]
  by_cases high : k ≤ i
  · by_cases inside : i < 64
    · simp [high, inside, Nat.add_sub_cancel' high]
    · have none : w.toNat.testBit i = false :=
        Nat.testBit_lt_two_pow (w.toNat_lt.trans_le (Nat.pow_le_pow_right (by decide) (by omega)))
      simp [high, inside, none, Nat.add_sub_cancel' high]
  · simp [high, Nat.lt_of_not_le high]

variable {size alignment : UInt64} (power : alignment.toNat.isPowerOfTwo)

include power

theorem alignment_dvd : alignment.toNat ∣ 2 ^ 64 := by
  obtain ⟨k, hk⟩ := power
  have bound := alignment.toNat_lt
  rw [hk] at bound ⊢
  exact Nat.pow_dvd_pow 2 ((Nat.pow_lt_pow_iff_right (by decide)).1 bound).le

/-- A multiple of the alignment leaves room for another alignment. -/
theorem add_le_of_dvd (multiple : alignment.toNat ∣ size.toNat) :
    size.toNat + alignment.toNat ≤ 2 ^ 64 := by
  obtain ⟨n, words⟩ := alignment_dvd power
  obtain ⟨k, hk⟩ := multiple
  have bound : alignment.toNat * k < alignment.toNat * n := by
    rw [← hk, ← words]
    exact size.toNat_lt
  have next : k + 1 ≤ n := Nat.lt_of_mul_lt_mul_left bound
  rw [hk, words, ← Nat.mul_succ]
  exact Nat.mul_le_mul_left _ next

theorem toNat_alignTo (room : size.toNat + alignment.toNat ≤ 2 ^ 64) :
    (alignTo size alignment).toNat = roundUp size.toNat alignment.toNat := by
  obtain ⟨k, hk⟩ := power
  have positive := Nat.two_pow_pos k
  have bound := alignment.toNat_lt
  have low : (alignment - 1).toNat = 2 ^ k - 1 := by
    rw [UInt64.toNat_sub, UInt64.toNat_one]
    omega
  have raised : (size + alignment - 1).toNat = size.toNat + alignment.toNat - 1 := by
    rw [UInt64.toNat_sub, UInt64.toNat_add, UInt64.toNat_one]
    omega
  rw [alignTo, toNat_and_not low, raised, roundUp, hk]

theorem isLeast_alignTo (room : size.toNat + alignment.toNat ≤ 2 ^ 64) :
    IsLeast {m : Nat | alignment.toNat ∣ m ∧ size.toNat ≤ m} (alignTo size alignment).toNat := by
  rw [toNat_alignTo power room]
  exact isLeast_roundUp (Nat.pos_of_isPowerOfTwo power) _

theorem alignTo_of_dvd (multiple : alignment.toNat ∣ size.toNat) :
    alignTo size alignment = size := by
  rw [← UInt64.toNat_inj, toNat_alignTo power (add_le_of_dvd power multiple)]
  exact roundUp_of_dvd (Nat.pos_of_isPowerOfTwo power) multiple

theorem alignTo?_eq : alignTo? size alignment =
    if size.toNat + alignment.toNat < 2 ^ 64 then some (alignTo size alignment) else none := by
  have sum : addWords? size alignment =
      if size.toNat + alignment.toNat < 2 ^ 64 then some (size + alignment) else none := rfl
  rw [alignTo?, guard, if_pos power, sum]
  split <;> rfl

theorem alignTo?_eq_none_iff (room : size.toNat + alignment.toNat ≤ 2 ^ 64) :
    alignTo? size alignment = none ↔ size.toNat + alignment.toNat = 2 ^ 64 := by
  rw [alignTo?_eq power, ite_eq_right_iff]
  simp only [reduceCtorEq, imp_false]
  omega

theorem alignTo?_eq_some_iff (room : size.toNat + alignment.toNat ≤ 2 ^ 64) :
    alignTo? size alignment = some (alignTo size alignment) ↔
      size.toNat + alignment.toNat ≠ 2 ^ 64 := by
  rw [alignTo?_eq power, ite_eq_left_iff]
  simp only [reduceCtorEq, imp_false, not_not]
  omega

/-- With an alignment that is a power of two, a size is rounded up to the least multiple of the
alignment, as long as the size and all of the alignment but one fit a word. What is added is less
than the alignment, larger sizes are not rounded to smaller ones, and a second time nothing changes.
The checked function has this answer unless the size and all of the alignment just leave the
words. -/
theorem alignTo_rounds_up_unless_sum_full (room : size.toNat + alignment.toNat - 1 < 2 ^ 64) :
    let s := alignTo size alignment
    IsLeast {m : Nat | alignment.toNat ∣ m ∧ size.toNat ≤ m} s.toNat ∧
    s.toNat - size.toNat < alignment.toNat ∧
    (∀ smaller ≤ size, alignTo smaller alignment ≤ s) ∧
    alignTo s alignment = s ∧
    (alignTo? size alignment = some s ↔ size.toNat + alignment.toNat ≠ 2 ^ 64) ∧
    (alignTo? size alignment = none ↔ size.toNat + alignment.toNat = 2 ^ 64) ∧
    (alignTo? s alignment = some s ↔ s.toNat + alignment.toNat ≠ 2 ^ 64) := by
  intro s
  have positive := Nat.pos_of_isPowerOfTwo power
  have enough : size.toNat + alignment.toNat ≤ 2 ^ 64 := by omega
  have least : IsLeast _ s.toNat := isLeast_alignTo power enough
  have fixed : alignTo s alignment = s := alignTo_of_dvd power least.1.1
  have again := alignTo?_eq_some_iff power (add_le_of_dvd power least.1.1)
  rw [fixed] at again
  refine ⟨least, ?_, fun smaller le => ?_, fixed, alignTo?_eq_some_iff power enough,
    alignTo?_eq_none_iff power enough, again⟩
  · have near := lt_add_of_isLeast least positive
    omega
  · rw [UInt64.le_iff_toNat_le] at le ⊢
    exact le_of_isLeast (isLeast_alignTo power (by omega)) le least

omit power

/-- A size just below the last multiple. It has an answer, which is not answered a second time. -/
theorem alignTo_rounds_up_unless_sum_full_below_last :
    let size : UInt64 := 0xfffffffffffffeff
    let alignment : UInt64 := 256
    let s : UInt64 := 0xffffffffffffff00
    IsLeast {m : Nat | alignment.toNat ∣ m ∧ size.toNat ≤ m} s.toNat ∧
      s.toNat - size.toNat < alignment.toNat ∧
      alignTo 0xffff alignment ≤ s ∧ alignTo s alignment = s ∧ alignTo? size alignment = some s ∧
      alignTo? s alignment ≠ some s := by
  intro size alignment s
  have power : alignment.toNat.isPowerOfTwo := by decide
  have room : size.toNat + alignment.toNat - 1 < 2 ^ 64 := by decide
  have answer : alignTo size alignment = s := by decide
  have checked := alignTo_rounds_up_unless_sum_full power room
  rw [answer] at checked
  obtain ⟨least, near, mono, fixed, answered, -, again⟩ := checked
  exact ⟨least, near, mono 0xffff (by decide), fixed, answered.2 (by decide),
    again.not.2 (by decide)⟩

/-- The last multiple of an alignment has no answer, although it is aligned already and nothing
needs to be added. -/
theorem last_multiple_unanswered :
    let size : UInt64 := 0xffffffffffffff00
    let alignment : UInt64 := 256
    alignment.toNat.isPowerOfTwo ∧ size.toNat + alignment.toNat - 1 < 2 ^ 64 ∧
      IsLeast {m : Nat | alignment.toNat ∣ m ∧ size.toNat ≤ m} size.toNat ∧
      alignTo? size alignment = none := by
  intro size alignment
  exact ⟨by decide, by decide, ⟨⟨by decide, le_rfl⟩, fun m above => above.2⟩, by decide⟩

end GroundPlane.Gpu
