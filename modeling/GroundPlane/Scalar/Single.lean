import GroundPlane.Scalar.Basic
import GroundPlane.Scalar.Rounding
import GroundPlane.Scalar.Sine
import GroundPlane.Scalar.Power

/-!
# Single precision as a scalar

The arithmetic of the running program: every operation is rounded on its own.
-/

namespace GroundPlane

/-- Conversion of a natural number rounds to nearest, and the integer part saturates at 32 bits. Of
two equal zeros, the second is taken as the smaller and as the larger. -/
instance : Scalar Float32 where
  zero := 0
  one := 1
  natCast := Float32.ofNat
  decLt := inferInstance
  decLe := inferInstance
  isFinite := Float32.isFinite
  abs := Float32.abs
  floor := Rounding.floor
  sqrt := Float32.sqrt
  lesser a b := if b.isNaN then a else if a < b then a else b
  greater a b := if b.isNaN then a else if b < a then a else b
  truncate a := a.toUInt32.toNat

instance : Elementary Float32 where
  sin := Sine.sin
  cos := Sine.cos
  pow := Power.pow
  quarterTurn := 1.5707963267948966

end GroundPlane
