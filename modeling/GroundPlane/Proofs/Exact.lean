import Mathlib
import GroundPlane.Scalar.Basic

/-!
# Exact arithmetic

Every ordered field whose numbers have integer parts is a `Scalar` without rounding, once a square
root is chosen. The stages of the program are the same definitions over it as over single precision.
The rational numbers are such a field in which they can still be run, and the real numbers have the
elementary functions.
-/

namespace GroundPlane

/-- The choice of a square root. -/
class SquareRoot (K : Type) where
  /-- The square root of a number; any number where there is none. -/
  sqrt : K → K

instance : SquareRoot ℚ := ⟨Rat.sqrt⟩

noncomputable instance : SquareRoot ℝ := ⟨Real.sqrt⟩

noncomputable instance : Elementary ℝ where
  sin := Real.sin
  cos := Real.cos
  pow x y := x ^ y
  quarterTurn := Real.pi / 2

/-- The numbers of an ordered field, with its own operations. -/
instance Scalar.exact {K : Type} [Field K] [LinearOrder K] [FloorRing K] [SquareRoot K] :
    Scalar K where
  toOfScientific := NNRatCast.toOfScientific
  beq a b := decide (a = b)
  decLt := inferInstance
  decLe := inferInstance
  isFinite _ := true
  abs a := |a|
  floor a := (⌊a⌋ : K)
  sqrt := SquareRoot.sqrt
  lesser := min
  greater := max
  truncate a := ⌊a⌋.toNat

end GroundPlane
