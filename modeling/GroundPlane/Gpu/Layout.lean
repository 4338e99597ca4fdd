import GroundPlane.Gpu.Format
import GroundPlane.Geometry.Vector

/-!
# Pipeline state

How vertices lie in their buffers, how fragments are blended and how depth is tested.
-/

namespace GroundPlane.Gpu

/-- A vector of single-precision numbers in a vertex. -/
inductive VertexFormat
  | float32x2 | float32x3 | float32x4
deriving DecidableEq

/-- The size in bytes. -/
def VertexFormat.size : VertexFormat → Nat
  | float32x2 => 8
  | float32x3 => 12
  | float32x4 => 16

/-- Whether a buffer advances per vertex or per instance. -/
inductive StepMode
  | perVertex | perInstance
deriving DecidableEq

/-- An attribute of a vertex: its shader location, its offset in bytes and its format. -/
structure Attribute where
  location : Nat
  offset : Nat
  format : VertexFormat
deriving DecidableEq

/-- The layout of a vertex buffer. -/
structure VertexLayout where
  stride : Nat
  step : StepMode
  attributes : List Attribute
deriving DecidableEq

/-- Attributes that lie one after the other, from a location and offset on. -/
def Attribute.packed : Nat → Nat → List VertexFormat → List Attribute
  | _, _, [] => []
  | location, offset, f :: rest =>
      ⟨location, offset, f⟩ :: packed (location + 1) (offset + f.size) rest

/-- The layout whose attributes fill a vertex without gaps. -/
def VertexLayout.packed (formats : List VertexFormat) : VertexLayout where
  stride := formats.foldl (· + ·.size) 0
  step := .perVertex
  attributes := Attribute.packed 0 0 formats

/-- A position on the screen. -/
def quadLayout : VertexLayout :=
  .packed [.float32x2]

/-- Position, color, texture coordinates and normal. -/
def meshLayout : VertexLayout :=
  .packed [.float32x3, .float32x4, .float32x2, .float32x3]

/-- A rectangle that covers the screen, in device coordinates. -/
def screenCorners {α : Type} [Scalar α] : List (Vec2 α) :=
  [⟨-1, -1⟩, ⟨1, -1⟩, ⟨1, 1⟩, ⟨-1, 1⟩]

/-- Its two triangles. -/
def screenIndices : List UInt16 :=
  [0, 1, 2, 0, 2, 3]

/-- A factor of a blend. -/
inductive BlendFactor
  | zero | one | srcAlpha | oneMinusSrcAlpha
deriving DecidableEq

/-- How two weighted values are combined. -/
inductive BlendOperation
  | add | subtract | reverseSubtract | min | max
deriving DecidableEq

/-- The blend of one part of a color. -/
structure BlendComponent where
  src : BlendFactor
  dst : BlendFactor
  operation : BlendOperation
deriving DecidableEq

/-- The blend of color and alpha. -/
structure Blend where
  color : BlendComponent
  alpha : BlendComponent
deriving DecidableEq

/-- The blend of colors that are not multiplied by their alpha. -/
def straightAlpha : Blend where
  color := ⟨.srcAlpha, .oneMinusSrcAlpha, .add⟩
  alpha := ⟨.one, .oneMinusSrcAlpha, .add⟩

/-- How depth is tested and written. -/
structure DepthState where
  format : TextureFormat
  write : Bool
  compare : Comparison
  stencil : Bool
  bias : Bool
deriving DecidableEq

/-- Depth is written; stencil and bias are off. -/
def depthState (format : TextureFormat) (compare : Comparison) : DepthState :=
  { format, write := true, compare, stencil := false, bias := false }

end GroundPlane.Gpu
