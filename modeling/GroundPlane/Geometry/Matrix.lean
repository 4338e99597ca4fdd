import GroundPlane.Geometry.Vector

/-!
# Matrices

Matrices are given by their columns `x`, `y`, `z`, `w`. A product with a vector adds the scaled
columns from left to right, and a product of matrices does so for each column on the right.
-/

namespace GroundPlane

/-- A matrix of three columns of three components. -/
structure Mat3 (α : Type) where
  x : Vec3 α
  y : Vec3 α
  z : Vec3 α
deriving DecidableEq

/-- A matrix of four columns of four components. -/
structure Mat4 (α : Type) where
  x : Vec4 α
  y : Vec4 α
  z : Vec4 α
  w : Vec4 α
deriving DecidableEq

variable {α : Type}

/-- The product of a matrix and a vector. -/
def Mat3.mulVec [Add α] [Mul α] (m : Mat3 α) (v : Vec3 α) : Vec3 α :=
  m.x * v.x + m.y * v.y + m.z * v.z

namespace Mat4

/-- Applies a function to each component. -/
def map {β : Type} (f : α → β) (m : Mat4 α) : Mat4 β :=
  ⟨m.x.map f, m.y.map f, m.z.map f, m.w.map f⟩

/-- The components, column by column. -/
def toList (m : Mat4 α) : List α :=
  m.x.toList ++ m.y.toList ++ m.z.toList ++ m.w.toList

/-- The identity matrix. -/
def identity [Zero α] [One α] : Mat4 α :=
  ⟨⟨1, 0, 0, 0⟩, ⟨0, 1, 0, 0⟩, ⟨0, 0, 1, 0⟩, ⟨0, 0, 0, 1⟩⟩

/-- The product of a matrix and a vector. -/
def mulVec [Add α] [Mul α] (m : Mat4 α) (v : Vec4 α) : Vec4 α :=
  m.x * v.x + m.y * v.y + m.z * v.z + m.w * v.w

instance [Add α] [Mul α] : Mul (Mat4 α) :=
  ⟨fun a b => ⟨a.mulVec b.x, a.mulVec b.y, a.mulVec b.z, a.mulVec b.w⟩⟩

/-- The linear part: the upper left block. -/
def linear (m : Mat4 α) : Mat3 α :=
  ⟨m.x.xyz, m.y.xyz, m.z.xyz⟩

/-! ## Inverse

The inverse is the adjugate divided by the determinant. Each row of the adjugate comes from the
minors of two rows, computed four columns at a time. Nothing is checked: a singular matrix divides
by zero. -/

section Inverse

variable [Sub α] [Mul α]

/-- The two-by-two minors of rows `p` and `q` over the columns `z, w` (twice), `y, w` and `y, z`. -/
def minors (m : Mat4 α) (p q : Vec4 α → α) : Vec4 α :=
  let zw := p m.z * q m.w - p m.w * q m.z
  ⟨zw, zw, p m.y * q m.w - p m.w * q m.y, p m.y * q m.z - p m.z * q m.y⟩

/-- The entry of row `p` that each minor is multiplied with: column `y` for the first, `x` for the
others. -/
def lead (m : Mat4 α) (p : Vec4 α → α) : Vec4 α :=
  ⟨p m.y, p m.x, p m.x, p m.x⟩

/-- The adjugate, as columns with alternating signs. -/
def adjugate [Add α] [Neg α] [One α] (m : Mat4 α) : Mat4 α :=
  let even : Vec4 α := ⟨1, -1, 1, -1⟩
  let odd : Vec4 α := ⟨-1, 1, -1, 1⟩
  let x := Vec4.x
  let y := Vec4.y
  let z := Vec4.z
  let w := Vec4.w
  ⟨even * (m.lead y * m.minors z w - m.lead z * m.minors y w + m.lead w * m.minors y z),
   odd * (m.lead x * m.minors z w - m.lead z * m.minors x w + m.lead w * m.minors x z),
   even * (m.lead x * m.minors y w - m.lead y * m.minors x w + m.lead w * m.minors x y),
   odd * (m.lead x * m.minors y z - m.lead y * m.minors x z + m.lead z * m.minors x y)⟩

/-- The determinant, expanded along the first column, given the adjugate. -/
def expand [Add α] (m adj : Mat4 α) : α :=
  (m.x.x * adj.x.x + m.x.z * adj.z.x) + (m.x.y * adj.y.x + m.x.w * adj.w.x)

/-- The determinant. -/
def det [Add α] [Neg α] [One α] (m : Mat4 α) : α :=
  m.expand m.adjugate

/-- The inverse of a matrix whose determinant is not zero. -/
def inverse [Add α] [Neg α] [One α] [Div α] (m : Mat4 α) : Mat4 α :=
  let adj := m.adjugate
  let r := 1 / m.expand adj
  ⟨adj.x * r, adj.y * r, adj.z * r, adj.w * r⟩

end Inverse

end Mat4

end GroundPlane
