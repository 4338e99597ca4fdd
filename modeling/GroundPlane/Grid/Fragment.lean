import GroundPlane.Grid.Ray
import GroundPlane.Grid.Pattern
import GroundPlane.Screen.Viewport

/-!
# Grid fragments

The fragment stage of the grid: both line patterns at the ground point seen through a pixel, faded
with distance, and the depth of that point.
-/

namespace GroundPlane.Grid

/-- A color with straight alpha and the depth to be written. -/
structure Fragment (α : Type) where
  color : Vec4 α
  depth : α
deriving DecidableEq

variable {α : Type} [Scalar α]

/-- The share of a fragment's alpha that is left at a linear depth. -/
def fade (linearDepth offset : α) : α :=
  Scalar.greater (offset - linearDepth) 0

/-- The sum of both line patterns. -/
def patterns (positions : Patch (Vec3 α)) (style : Style α) : Vec4 α :=
  0 + pattern positions style.fine style + pattern positions style.coarse style

/-- The fragment stage. The depth is always that of the ground point. The color is transparent black
unless the ground is ahead, chosen last, so that nothing undefined from a parallel ray remains in
it. -/
def fragment (rays : Patch (Ray α)) (p : Projector α) (style : Style α) : Fragment α :=
  let hits := rays.map Ray.ground
  let hit := hits.here
  let color := patterns (hits.map Hit.position) style
  let fading := fade (p.linearDepth hit.position) style.fadeOffset
  { color := if hit.isVisible then { color with w := color.w * fading } else 0
    depth := p.depth hit.position }

/-- The grid at a pixel of a viewport. -/
def pixel (p : Projector α) (viewport : Viewport α) (style : Style α) (px py : α) : Fragment α :=
  fragment (.sample px py fun x y => .through p (viewport.toNdc x y)) p style

end GroundPlane.Grid
