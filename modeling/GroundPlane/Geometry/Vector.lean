import GroundPlane.Scalar.Basic

/-!
# Vectors

Vectors of two, three and four components. The order of the additions in `Vec3.dot` is part of its
meaning, since rounding arithmetic does not associate.
-/

namespace GroundPlane

/-- A vector of two components. -/
structure Vec2 (α : Type) where
  x : α
  y : α
deriving DecidableEq

/-- A vector of three components. -/
structure Vec3 (α : Type) where
  x : α
  y : α
  z : α
deriving DecidableEq

/-- A vector of four components. -/
structure Vec4 (α : Type) where
  x : α
  y : α
  z : α
  w : α
deriving DecidableEq

variable {α β : Type}

namespace Vec2

/-- Applies a function to each component. -/
def map (f : α → β) (v : Vec2 α) : Vec2 β :=
  ⟨f v.x, f v.y⟩

/-- Applies a function to each pair of components. -/
def zipWith (f : α → α → α) (a b : Vec2 α) : Vec2 α :=
  ⟨f a.x b.x, f a.y b.y⟩

/-- The components in order. -/
def toList (v : Vec2 α) : List α :=
  [v.x, v.y]

instance [Add α] : Add (Vec2 α) := ⟨zipWith (· + ·)⟩
instance [Sub α] : Sub (Vec2 α) := ⟨zipWith (· - ·)⟩
instance [Div α] : Div (Vec2 α) := ⟨zipWith (· / ·)⟩
instance [Mul α] : HMul (Vec2 α) α (Vec2 α) := ⟨fun v s => v.map (· * s)⟩
instance [Zero α] : Zero (Vec2 α) := ⟨⟨0, 0⟩⟩

/-- Adds a third component. -/
def extend (v : Vec2 α) (z : α) : Vec3 α :=
  ⟨v.x, v.y, z⟩

end Vec2

namespace Vec3

/-- Applies a function to each component. -/
def map (f : α → β) (v : Vec3 α) : Vec3 β :=
  ⟨f v.x, f v.y, f v.z⟩

/-- Applies a function to each pair of components. -/
def zipWith (f : α → α → α) (a b : Vec3 α) : Vec3 α :=
  ⟨f a.x b.x, f a.y b.y, f a.z b.z⟩

/-- The components in order. -/
def toList (v : Vec3 α) : List α :=
  [v.x, v.y, v.z]

instance [Add α] : Add (Vec3 α) := ⟨zipWith (· + ·)⟩
instance [Sub α] : Sub (Vec3 α) := ⟨zipWith (· - ·)⟩
instance [Mul α] : Mul (Vec3 α) := ⟨zipWith (· * ·)⟩
instance [Mul α] : HMul (Vec3 α) α (Vec3 α) := ⟨fun v s => v.map (· * s)⟩
instance [Div α] : HDiv (Vec3 α) α (Vec3 α) := ⟨fun v s => v.map (· / s)⟩
instance [Zero α] : Zero (Vec3 α) := ⟨⟨0, 0, 0⟩⟩

/-- Adds a fourth component. -/
def extend (v : Vec3 α) (w : α) : Vec4 α :=
  ⟨v.x, v.y, v.z, w⟩

/-- The inner product. -/
def dot [Add α] [Mul α] (a b : Vec3 α) : α :=
  a.x * b.x + a.y * b.y + a.z * b.z

/-- The cross product. -/
def cross [Sub α] [Mul α] (a b : Vec3 α) : Vec3 α :=
  ⟨a.y * b.z - b.y * a.z, a.z * b.x - b.z * a.x, a.x * b.y - b.x * a.y⟩

/-- The vector of the same direction and length one, by the reciprocal of the length. -/
def normalize [Scalar α] (v : Vec3 α) : Vec3 α :=
  v * ((1 : α) / Scalar.sqrt (v.dot v))

end Vec3

namespace Vec4

/-- Applies a function to each component. -/
def map (f : α → β) (v : Vec4 α) : Vec4 β :=
  ⟨f v.x, f v.y, f v.z, f v.w⟩

/-- Applies a function to each pair of components. -/
def zipWith (f : α → α → α) (a b : Vec4 α) : Vec4 α :=
  ⟨f a.x b.x, f a.y b.y, f a.z b.z, f a.w b.w⟩

/-- The components in order. -/
def toList (v : Vec4 α) : List α :=
  [v.x, v.y, v.z, v.w]

instance [Add α] : Add (Vec4 α) := ⟨zipWith (· + ·)⟩
instance [Sub α] : Sub (Vec4 α) := ⟨zipWith (· - ·)⟩
instance [Mul α] : Mul (Vec4 α) := ⟨zipWith (· * ·)⟩
instance [Mul α] : HMul (Vec4 α) α (Vec4 α) := ⟨fun v s => v.map (· * s)⟩
instance [Div α] : HDiv (Vec4 α) α (Vec4 α) := ⟨fun v s => v.map (· / s)⟩
instance [Zero α] : Zero (Vec4 α) := ⟨⟨0, 0, 0, 0⟩⟩

/-- The first three components. -/
def xyz (v : Vec4 α) : Vec3 α :=
  ⟨v.x, v.y, v.z⟩

/-- The point that homogeneous coordinates stand for. -/
def dehomogenize [Div α] (v : Vec4 α) : Vec3 α :=
  v.xyz / v.w

end Vec4

end GroundPlane
