import GroundPlane.View.Projector
import GroundPlane.Screen.Viewport

/-!
# Cameras
-/

namespace GroundPlane

/-- A perspective camera that looks from `eye` towards `target`. The field of view is vertical, in
radians. -/
structure Camera (α : Type) where
  eye : Vec3 α
  target : Vec3 α
  up : Vec3 α
  fovY : α
  near : α
  far : α
deriving DecidableEq

namespace Camera

variable {α : Type} [Scalar α] [Elementary α]

/-- A camera a little above the ground, with a field of view of an eighth of a turn. -/
def standard : Camera Float32 where
  eye := ⟨0.0, 2.0, 6.0⟩
  target := 0
  up := ⟨0, 1, 0⟩
  fovY := 0.7853981633974483
  near := 0.01
  far := 100.0

/-- The matrix from the world to the camera. -/
def view (c : Camera α) : Mat4 α :=
  .lookAt c.eye c.target c.up

/-- The matrix from the camera to clip space. -/
def projection (c : Camera α) (aspect : α) : Mat4 α :=
  .perspective c.fovY aspect c.near c.far

/-- The projector onto a viewport. -/
def projector (c : Camera α) (viewport : Viewport α) : Projector α :=
  { view := c.view, projection := c.projection viewport.aspect, near := c.near, far := c.far }

end Camera

end GroundPlane
