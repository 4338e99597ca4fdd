import GroundPlane.View.Projector
import GroundPlane.Screen.Patch
import GroundPlane.Mesh

/-!
# Lighting stages

Vertex and fragment stage of meshes lit by one point light. The normal of a fragment is either the
mesh's own or the one that the neighbouring fragments span.
-/

namespace GroundPlane

/-- Where the normal of a fragment comes from: the change of position across the screen, or the
mesh. -/
inductive NormalSource
  | derivative
  | vertex
deriving DecidableEq

namespace NormalSource

/-- The other source. -/
def toggle : NormalSource → NormalSource
  | derivative => vertex
  | vertex => derivative

/-- The number that stands for a source in a uniform block. -/
def code : NormalSource → UInt32
  | derivative => 0
  | vertex => 1

end NormalSource

namespace Lighting

/-- An object to draw: where the mesh stands, where the light is, and how normals are found. -/
structure Object (α : Type) where
  model : Mat4 α
  light : Vec3 α
  normals : NormalSource
deriving DecidableEq

/-- Applies a function to each number of an object. -/
def Object.map {β γ : Type} (f : β → γ) (object : Object β) : Object γ :=
  { model := object.model.map f, light := object.light.map f, normals := object.normals }

/-- An object at the origin, with the light there too. -/
def Object.standard : Object Float32 :=
  { model := .identity, light := 0, normals := .derivative }

/-- What a vertex passes on to its fragments. The normal is in world space and of any length. -/
structure Varying (α : Type) where
  clip : Vec4 α
  position : Vec3 α
  color : Vec4 α
  uv : Vec2 α
  normal : Vec3 α
deriving DecidableEq

variable {α : Type} [Scalar α]

/-- The vertex stage. -/
def vertex (v : Vertex α) (p : Projector α) (object : Object α) : Varying α :=
  let world := object.model.mulVec (v.position.extend 1)
  { clip := p.toClip.mulVec world
    position := world.xyz
    color := v.color
    uv := v.uv
    normal := object.model.linear.mulVec v.normal }

/-- The normal of the surface whose position changes by `ddx` and `ddy` per pixel, on the side that
faces the camera: the second derivative points down the screen. -/
def normalOfDerivatives (ddx ddy : Vec3 α) : Vec3 α :=
  (ddy.cross ddx).normalize

/-- The least share of light that any surface gets. -/
def ambient : α := 0.5

/-- The share of light that a surface gets. -/
def diffuse (normal position light : Vec3 α) : α :=
  let direction := (light - position).normalize
  Scalar.clamp 0 1 (Scalar.greater (normal.dot direction) 0 + ambient)

/-- The normal of a fragment. -/
def fragmentNormal (patch : Patch (Varying α)) : NormalSource → Vec3 α
  | .derivative =>
      let positions := patch.map Varying.position
      normalOfDerivatives positions.ddx positions.ddy
  | .vertex => patch.here.normal.normalize

/-- The fragment stage, given the texture's color at the fragment. The result is opaque. -/
def fragment (patch : Patch (Varying α)) (texel : Vec4 α) (object : Object α) : Vec4 α :=
  let here := patch.here
  let share := diffuse (fragmentNormal patch object.normals) here.position object.light
  (here.color.xyz * share * texel.xyz).extend 1

end Lighting

end GroundPlane
