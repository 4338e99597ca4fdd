import GroundPlane.View.Projector

/-!
# View rays and the ground

Each pixel of the screen carries the ray from the near plane to the far plane that is seen through
it. The ground is the plane of height zero.
-/

namespace GroundPlane.Grid

/-- The piece of a view ray between the clip planes. -/
structure Ray (α : Type) where
  near : Vec3 α
  far : Vec3 α
deriving DecidableEq

/-- What a corner of the screen passes on: its clip position and the view ray through it. -/
structure Corner (α : Type) where
  clip : Vec4 α
  ray : Ray α
deriving DecidableEq

/-- Where a view ray meets the ground: at the share `t` of the way from the near to the far
plane. -/
structure Hit (α : Type) where
  t : α
  position : Vec3 α
deriving DecidableEq

variable {α : Type} [Scalar α]

/-- The view ray through a position in device coordinates. -/
def Ray.through (p : Projector α) (ndc : Vec2 α) : Ray α :=
  { near := p.unproject (ndc.extend 0), far := p.unproject (ndc.extend 1) }

/-- The vertex stage, for a position on the screen in device coordinates. -/
def Corner.ofNdc (p : Projector α) (ndc : Vec2 α) : Corner α :=
  { clip := ⟨ndc.x, ndc.y, 0, 1⟩, ray := .through p ndc }

/-- The point of the line through a ray that lies on the ground. A ray parallel to the ground
divides by zero. -/
def Ray.ground (r : Ray α) : Hit α :=
  let t := -r.near.y / (r.far.y - r.near.y)
  { t, position := r.near + (r.far - r.near) * t }

/-- The ground is ahead of the near plane. -/
def Hit.isVisible (h : Hit α) : Bool :=
  decide (0 < h.t)

end GroundPlane.Grid
