/-!
# Sums of machine words

A sum that leaves the 64 bits of a word is not wrapped around: there is none.
-/

namespace GroundPlane

/-- The sum of two words, if it is in range. -/
def addWords? (a b : UInt64) : Option UInt64 :=
  if a.toNat + b.toNat < UInt64.size then some (a + b) else none

theorem addWords?_eq_some_iff {a b c : UInt64} :
    addWords? a b = some c ↔ c.toNat = a.toNat + b.toNat := by
  have bound := c.toNat_lt
  unfold addWords?
  split
  next inside =>
    rw [Option.some.injEq, ← UInt64.toNat_inj, UInt64.toNat_add, Nat.mod_eq_of_lt inside, eq_comm]
  next outside =>
    refine ⟨nofun, fun same => absurd (same ▸ bound) outside⟩

theorem addWords?_eq_none_iff {a b : UInt64} :
    addWords? a b = none ↔ UInt64.size ≤ a.toNat + b.toNat := by
  simp [addWords?]

end GroundPlane
