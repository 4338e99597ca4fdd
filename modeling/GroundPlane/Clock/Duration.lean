import GroundPlane.Scalar.Word

/-!
# Durations

Whole seconds in a 64-bit word, and nanoseconds below a second.
-/

namespace GroundPlane

/-- A length of time. -/
structure Duration where
  seconds : UInt64
  nanos : UInt32
  nanos_lt : nanos.toNat < 1000000000 := by decide
deriving DecidableEq

namespace Duration

/-- The length in nanoseconds. -/
def toNanos (d : Duration) : Nat :=
  1000000000 * d.seconds.toNat + d.nanos.toNat

/-- The duration of so many nanoseconds, if it is in range. -/
def ofNanos? (n : Nat) : Option Duration :=
  if n < UInt64.size * 1000000000 then
    some {
      seconds := .ofNat (n / 1000000000)
      nanos := .ofNat (n % 1000000000)
      nanos_lt := by
        rw [UInt32.toNat_ofNat']
        exact Nat.lt_of_le_of_lt (Nat.mod_le _ _) (Nat.mod_lt _ (by decide)) }
  else none

/-- No time at all. -/
def zero : Duration :=
  { seconds := 0, nanos := 0 }

/-- So many nanoseconds below a second. -/
def ofSubsecond (nanos : UInt32) (h : nanos.toNat < 1000000000 := by decide) : Duration :=
  { seconds := 0, nanos, nanos_lt := h }

theorem toNat_nanos_add (a b : Duration) :
    (a.nanos + b.nanos).toNat = a.nanos.toNat + b.nanos.toNat := by
  have := a.nanos_lt
  have := b.nanos_lt
  rw [UInt32.toNat_add]
  omega

theorem toNat_nanos_carry {a b : Duration} (full : ¬ (a.nanos + b.nanos).toNat < 1000000000) :
    (a.nanos + b.nanos - 1000000000).toNat = a.nanos.toNat + b.nanos.toNat - 1000000000 := by
  rw [UInt32.toNat_sub_of_le _ _ (UInt32.le_iff_toNat_le.2 (Nat.le_of_not_lt full)),
    toNat_nanos_add]
  rfl

/-- The sum, if it is in range. Nanoseconds that make up a second are carried. -/
def add? (a b : Duration) : Option Duration := do
  let seconds ← addWords? a.seconds b.seconds
  let nanos := a.nanos + b.nanos
  if short : nanos.toNat < 1000000000 then
    return { seconds, nanos, nanos_lt := short }
  else
    return {
      seconds := ← addWords? seconds 1
      nanos := nanos - 1000000000
      nanos_lt := by
        have := a.nanos_lt
        have := b.nanos_lt
        rw [toNat_nanos_carry short]
        omega }

/-- The nearest duration between `lo` and `hi`. -/
def clamp (lo hi d : Duration) : Duration :=
  if d.toNanos < lo.toNanos then lo else if hi.toNanos < d.toNanos then hi else d

/-- The length in seconds. Both parts are rounded on their own before they are added. -/
def toSeconds (d : Duration) : Float32 :=
  d.seconds.toFloat32 + d.nanos.toFloat32 / 1000000000.0

end Duration

end GroundPlane
