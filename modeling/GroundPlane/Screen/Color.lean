import GroundPlane.Scalar.Single

/-!
# Colors
-/

namespace GroundPlane

/-- A linear color with alpha. -/
structure Color where
  r : Float32
  g : Float32
  b : Float32
  a : Float32
deriving DecidableEq

/-- The value that clears a color attachment: the same channels in double precision. -/
structure ClearColor where
  r : Float
  g : Float
  b : Float
  a : Float

/-- The color as a clear value. -/
def Color.toClear (c : Color) : ClearColor :=
  ⟨Rounding.widen c.r, Rounding.widen c.g, Rounding.widen c.b, Rounding.widen c.a⟩

end GroundPlane
