import GroundPlane.Geometry.Transform
import GroundPlane.Scalar.Single

/-!
# Projectors

A projector maps the world to the screen and back. Device coordinates have depth 0 on the near plane
and 1 on the far plane.
-/

namespace GroundPlane

/-- View and projection of a draw, with the distances of the clip planes. -/
structure Projector (α : Type) where
  view : Mat4 α
  projection : Mat4 α
  near : α
  far : α
deriving DecidableEq

namespace Projector

/-- Applies a function to each number of a projector. -/
def map {β γ : Type} (f : β → γ) (p : Projector β) : Projector γ :=
  { view := p.view.map f, projection := p.projection.map f, near := f p.near, far := f p.far }

variable {α : Type} [Scalar α]

/-- The projector used when no camera is given. -/
def standard : Projector Float32 :=
  { view := .identity, projection := .identity, near := 0.1, far := 100.0 }

/-- The matrix from the world to clip space. -/
def toClip (p : Projector α) : Mat4 α :=
  p.projection * p.view

/-- The matrix from clip space to the world, up to scale. -/
def ofClip (p : Projector α) : Mat4 α :=
  p.view.inverse * p.projection.inverse

/-- The device coordinates of a world point. -/
def project (p : Projector α) (world : Vec3 α) : Vec3 α :=
  (p.toClip.mulVec (world.extend 1)).dehomogenize

/-- The world point at given device coordinates. -/
def unproject (p : Projector α) (ndc : Vec3 α) : Vec3 α :=
  (p.ofClip.mulVec (ndc.extend 1)).dehomogenize

/-- The depth of a world point, as the depth buffer holds it. -/
def depth (p : Projector α) (world : Vec3 α) : α :=
  (p.project world).z

/-- The depth of a world point along the view direction, as a share of the far distance. -/
def linearDepth (p : Projector α) (world : Vec3 α) : α :=
  let d := p.depth world * 2.0 - 1
  (2.0 * p.near * p.far) / (p.far + p.near - d * (p.far - p.near)) / p.far

end Projector

end GroundPlane
