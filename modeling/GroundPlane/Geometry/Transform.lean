import GroundPlane.Geometry.Matrix

/-!
# Transformations

Right-handed view and projection matrices with depth from 0 at the near plane to 1 at the far plane,
and the rigid motions that place objects in the world.
-/

namespace GroundPlane.Mat4

variable {α : Type} [Scalar α]

/-- The matrix that moves points by a vector. -/
def shift (t : Vec3 α) : Mat4 α :=
  { identity with w := t.extend 1 }

/-- The rotation about the vertical axis by an angle. -/
def rotationY [Elementary α] (angle : α) : Mat4 α :=
  let s := Elementary.sin angle
  let c := Elementary.cos angle
  ⟨⟨c, 0, -s, 0⟩, ⟨0, 1, 0, 0⟩, ⟨s, 0, c, 0⟩, ⟨0, 0, 0, 1⟩⟩

/-- The view of a camera at `eye` that looks towards `target`. -/
def lookAt (eye target up : Vec3 α) : Mat4 α :=
  let f := (target - eye).normalize
  let s := (f.cross up).normalize
  let u := s.cross f
  ⟨⟨s.x, u.x, -f.x, 0⟩, ⟨s.y, u.y, -f.y, 0⟩, ⟨s.z, u.z, -f.z, 0⟩,
   ⟨-eye.dot s, -eye.dot u, eye.dot f, 1⟩⟩

/-- The perspective projection with a vertical field of view. -/
def perspective [Elementary α] (fovY aspect near far : α) : Mat4 α :=
  let half := 0.5 * fovY
  let h := Elementary.cos half / Elementary.sin half
  let w := h / aspect
  let r := far / (near - far)
  ⟨⟨w, 0, 0, 0⟩, ⟨0, h, 0, 0⟩, ⟨0, 0, r, -1⟩, ⟨0, 0, r * near, 0⟩⟩

end GroundPlane.Mat4
