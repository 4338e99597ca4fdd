import GroundPlane.Grid.Style
import GroundPlane.Screen.Patch

/-!
# The line pattern

One pass of antialiased grid lines on the ground. A line is as wide as the extent of a pixel on the
ground, so that it keeps its width on the screen at any distance.
-/

namespace GroundPlane.Grid

variable {α : Type} [Scalar α]

/-- The distance of a coordinate from the nearest integer. -/
def lineDistance (coord : α) : α :=
  Scalar.abs (Scalar.fract (coord - 0.5) - 0.5)

/-- The distances of two coordinates from the nearest lines, in pixel extents. -/
def lineDistances (coord extent : Vec2 α) : Vec2 α :=
  coord.map lineDistance / extent

/-- Whether a coordinate lies strictly within a band about zero. -/
def withinBand (band x : α) : Bool :=
  decide (-band < x) && decide (x < band)

/-- The color of the pattern with `scale` lines to the unit. The axis through the points with
`x = 0` is blue and the one with `z = 0` is red. -/
def pattern (positions : Patch (Vec3 α)) (scale : α) (style : Style α) : Vec4 α :=
  let coords := positions.map fun p => (⟨p.x, p.z⟩ : Vec2 α) * scale
  let extent := coords.width
  let distances := lineDistances coords.here extent
  let line := Scalar.lesser distances.x distances.y
  let bandX := style.axisBand * Scalar.lesser extent.x 1
  let bandZ := style.axisBand * Scalar.lesser extent.y 1
  { x := if withinBand bandZ positions.here.z then 1 else style.lineColor.x
    y := style.lineColor.y
    z := if withinBand bandX positions.here.x then 1 else style.lineColor.z
    w := 1 - Scalar.lesser line 1 }

end GroundPlane.Grid
