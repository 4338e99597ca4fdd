/-!
# Scalars

The arithmetic that cameras and shading stages are written in. Every stage is stated once, over any
`Scalar`: single precision runs it, and an exact field says what it would compute without rounding.
-/

namespace GroundPlane

/-- Numbers with field operations, a decidable order and the rounding operations of shading code.
No law is assumed: rounding arithmetic is a `Scalar` too. -/
class Scalar (α : Type) extends Zero α, One α, Add α, Sub α, Mul α, Div α, Neg α, LT α, LE α, BEq α,
    NatCast α, OfScientific α where
  /-- The order is decidable. -/
  decLt : DecidableLT α
  /-- The weak order is decidable. -/
  decLe : DecidableLE α
  /-- Neither infinite nor undefined. -/
  isFinite : α → Bool
  /-- The magnitude. -/
  abs : α → α
  /-- The greatest integer not above a number. -/
  floor : α → α
  /-- The square root. -/
  sqrt : α → α
  /-- The smaller of two numbers; the other one if one is undefined. -/
  lesser : α → α → α
  /-- The larger of two numbers; the other one if one is undefined. -/
  greater : α → α → α
  /-- The integer part as a natural number; zero for what is negative or undefined. -/
  truncate : α → Nat

instance Scalar.decidableLt {α : Type} [Scalar α] (a b : α) : Decidable (a < b) :=
  Scalar.decLt a b

instance Scalar.decidableLe {α : Type} [Scalar α] (a b : α) : Decidable (a ≤ b) :=
  Scalar.decLe a b

/-- Trigonometric functions and powers. -/
class Elementary (α : Type) where
  /-- The sine of an angle in radians. -/
  sin : α → α
  /-- The cosine of an angle in radians. -/
  cos : α → α
  /-- A power. -/
  pow : α → α → α
  /-- A quarter turn in radians. -/
  quarterTurn : α

namespace Scalar

variable {α : Type} [Scalar α]

/-- The nearest number of the interval from `lo` to `hi`; an undefined number stays undefined. -/
def clamp (lo hi x : α) : α :=
  if x < lo then lo else if hi < x then hi else x

/-- The fractional part, counted from the integer below. -/
def fract (x : α) : α :=
  x - floor x

end Scalar

end GroundPlane
