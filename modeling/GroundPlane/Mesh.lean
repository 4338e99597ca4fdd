import GroundPlane.Geometry.Vector

/-!
# Meshes
-/

namespace GroundPlane

/-- A vertex of a mesh. -/
structure Vertex (α : Type) where
  position : Vec3 α
  color : Vec4 α
  uv : Vec2 α
  normal : Vec3 α
deriving DecidableEq

/-- A list of triangles over shared vertices. Seen from the front, the corners of a triangle run
counterclockwise. -/
structure Mesh (α : Type) where
  vertices : List (Vertex α)
  indices : List UInt16
deriving DecidableEq

namespace Mesh

variable {α : Type} [Scalar α]

/-- Nothing to draw. -/
def isEmpty (m : Mesh α) : Bool :=
  m.indices.isEmpty

/-- A side of a cube: its outward normal and two directions that span it, with `u × v` the
normal. -/
structure Face (α : Type) where
  normal : Vec3 α
  u : Vec3 α
  v : Vec3 α

/-- The six sides of a cube. -/
def faces : List (Face α) :=
  [⟨⟨1, 0, 0⟩, ⟨0, 0, -1⟩, ⟨0, 1, 0⟩⟩,
   ⟨⟨-1, 0, 0⟩, ⟨0, 0, 1⟩, ⟨0, 1, 0⟩⟩,
   ⟨⟨0, 1, 0⟩, ⟨1, 0, 0⟩, ⟨0, 0, -1⟩⟩,
   ⟨⟨0, -1, 0⟩, ⟨1, 0, 0⟩, ⟨0, 0, 1⟩⟩,
   ⟨⟨0, 0, 1⟩, ⟨1, 0, 0⟩, ⟨0, 1, 0⟩⟩,
   ⟨⟨0, 0, -1⟩, ⟨-1, 0, 0⟩, ⟨0, 1, 0⟩⟩]

/-- The four corners of a side: the signs along `u` and `v`, and the texture coordinates. -/
def corners : List (α × α × Vec2 α) :=
  [(-1, -1, ⟨0, 1⟩), (1, -1, ⟨1, 1⟩), (1, 1, ⟨1, 0⟩), (-1, 1, ⟨0, 0⟩)]

/-- The corner of a side of a cube with half the edge `h`. -/
def Face.vertex (f : Face α) (h : α) (color : Vec4 α) : α × α × Vec2 α → Vertex α
  | (su, sv, uv) =>
      { position := (f.normal + f.u * su + f.v * sv) * h, color, uv, normal := f.normal }

/-- A cube about the origin, with the whole texture on each side. -/
def cube (size : α) (color : Vec4 α) : Mesh α where
  vertices := faces.flatMap fun f => corners.map (f.vertex (size * 0.5) color)
  indices := [0, 4, 8, 12, 16, 20].flatMap fun base => [0, 1, 2, 0, 2, 3].map (base + ·)

end Mesh

end GroundPlane
