import GroundPlane.Geometry.Vector

/-!
# Viewports

The drawable area in pixels, with the origin in the upper left corner.
-/

namespace GroundPlane

/-- A drawable area in pixels. -/
structure Viewport (α : Type) where
  width : α
  height : α
deriving DecidableEq

namespace Viewport

variable {α : Type} [Scalar α]

/-- Both sides are positive and finite. -/
def isValid (v : Viewport α) : Bool :=
  decide (0 < v.width) && decide (0 < v.height) && Scalar.isFinite v.width &&
    Scalar.isFinite v.height

/-- Width over height; one for an area that is not valid. -/
def aspect (v : Viewport α) : α :=
  if v.isValid then v.width / v.height else 1

/-- The device coordinates of a pixel position: `-1` to `1`, to the right and upwards. -/
def toNdc (v : Viewport α) (px py : α) : Vec2 α :=
  ⟨px / v.width * 2.0 - 1, 1 - py / v.height * 2.0⟩

end Viewport

end GroundPlane
