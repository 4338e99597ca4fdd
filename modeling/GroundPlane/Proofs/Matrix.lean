import Mathlib
import GroundPlane.Geometry.Matrix
import GroundPlane.Proofs.Vector

/-!
# Matrices over a field

Over a field, products of matrices act on vectors one after the other, and `Mat4.inverse`, which
divides the adjugate by the determinant, is the inverse on both sides of every matrix that has one.
-/

namespace GroundPlane

attribute [ext] Mat4

variable {α K : Type}

namespace Mat4

theorem mulVec_def [Add α] [Mul α] (m : Mat4 α) (v : Vec4 α) :
    m.mulVec v =
      ⟨m.x.x * v.x + m.y.x * v.y + m.z.x * v.z + m.w.x * v.w,
       m.x.y * v.x + m.y.y * v.y + m.z.y * v.z + m.w.y * v.w,
       m.x.z * v.x + m.y.z * v.y + m.z.z * v.z + m.w.z * v.w,
       m.x.w * v.x + m.y.w * v.y + m.z.w * v.z + m.w.w * v.w⟩ := rfl

theorem mul_def [Add α] [Mul α] (a b : Mat4 α) :
    a * b = ⟨a.mulVec b.x, a.mulVec b.y, a.mulVec b.z, a.mulVec b.w⟩ := rfl

variable [Field K]

/-! ## Action on vectors -/

theorem mul_mulVec (a b : Mat4 K) (v : Vec4 K) : (a * b).mulVec v = a.mulVec (b.mulVec v) := by
  simp only [mul_def, mulVec_def, Vec4.mk.injEq]
  refine ⟨?_, ?_, ?_, ?_⟩ <;> ring

theorem mulVec_add (m : Mat4 K) (u v : Vec4 K) : m.mulVec (u + v) = m.mulVec u + m.mulVec v := by
  simp only [mulVec_def, Vec4.add_def, Vec4.mk.injEq]
  refine ⟨?_, ?_, ?_, ?_⟩ <;> ring

theorem mulVec_scale (m : Mat4 K) (v : Vec4 K) (s : K) : m.mulVec (v * s) = m.mulVec v * s := by
  simp only [mulVec_def, Vec4.scale_def, Vec4.mk.injEq]
  refine ⟨?_, ?_, ?_, ?_⟩ <;> ring

theorem identity_mulVec (v : Vec4 K) : identity.mulVec v = v := by
  simp [mulVec_def, identity]

/-! ## Determinants -/

/-- The matrix with its rows and columns numbered. -/
def toMatrix (m : Mat4 α) : Matrix (Fin 4) (Fin 4) α :=
  !![m.x.x, m.y.x, m.z.x, m.w.x;
     m.x.y, m.y.y, m.z.y, m.w.y;
     m.x.z, m.y.z, m.z.z, m.w.z;
     m.x.w, m.y.w, m.z.w, m.w.w]

theorem toMatrix_injective : Function.Injective (toMatrix : Mat4 α → Matrix (Fin 4) (Fin 4) α) := by
  intro a b same
  have entry (i j : Fin 4) : a.toMatrix i j = b.toMatrix i j := by rw [same]
  ext
  exacts [entry 0 0, entry 1 0, entry 2 0, entry 3 0, entry 0 1, entry 1 1, entry 2 1, entry 3 1,
    entry 0 2, entry 1 2, entry 2 2, entry 3 2, entry 0 3, entry 1 3, entry 2 3, entry 3 3]

theorem toMatrix_mul (a b : Mat4 K) : (a * b).toMatrix = a.toMatrix * b.toMatrix := by
  ext i j
  rw [Matrix.mul_apply, Fin.sum_univ_four]
  fin_cases i <;> fin_cases j <;> rfl

theorem toMatrix_identity : (identity : Mat4 K).toMatrix = 1 := by
  ext i j
  fin_cases i <;> fin_cases j <;> rfl

theorem det_toMatrix (m : Mat4 K) : m.toMatrix.det = m.det := by
  rw [Matrix.det_succ_column_zero, Fin.sum_univ_four]
  simp only [Matrix.det_fin_three, Matrix.submatrix_apply, toMatrix, det, expand, adjugate, minors,
    lead, Vec4.mul_def, Vec4.add_def, Vec4.sub_def]
  simp [Fin.succAbove]
  ring

/-! ## Inverses -/

/-- The matrix has an inverse on both sides. -/
def IsInvertible (m : Mat4 K) : Prop :=
  ∃ n : Mat4 K, m * n = identity ∧ n * m = identity

theorem IsInvertible.det_ne_zero {m : Mat4 K} (invertible : m.IsInvertible) : m.det ≠ 0 := by
  obtain ⟨n, right, -⟩ := invertible
  intro singular
  have product : (m * n).toMatrix.det = m.det * n.det := by
    rw [toMatrix_mul, Matrix.det_mul, det_toMatrix, det_toMatrix]
  rw [right, toMatrix_identity, Matrix.det_one, singular, zero_mul] at product
  exact one_ne_zero product

theorem mul_adjugate (m : Mat4 K) :
    m * m.adjugate =
      ⟨⟨m.det, 0, 0, 0⟩, ⟨0, m.det, 0, 0⟩, ⟨0, 0, m.det, 0⟩, ⟨0, 0, 0, m.det⟩⟩ := by
  simp only [det, expand, adjugate, minors, lead, mul_def, mulVec_def, Vec4.mul_def, Vec4.add_def,
    Vec4.sub_def, mk.injEq, Vec4.mk.injEq]
  refine ⟨⟨?_, ?_, ?_, ?_⟩, ⟨?_, ?_, ?_, ?_⟩, ⟨?_, ?_, ?_, ?_⟩, ⟨?_, ?_, ?_, ?_⟩⟩ <;> ring

theorem mul_inverse {m : Mat4 K} (regular : m.det ≠ 0) : m * m.inverse = identity := by
  have columns := m.mul_adjugate
  rw [mul_def, mk.injEq] at columns
  obtain ⟨x, y, z, w⟩ := columns
  change (⟨m.mulVec (m.adjugate.x * (1 / m.det)), m.mulVec (m.adjugate.y * (1 / m.det)),
    m.mulVec (m.adjugate.z * (1 / m.det)),
    m.mulVec (m.adjugate.w * (1 / m.det))⟩ : Mat4 K) = identity
  rw [mulVec_scale, mulVec_scale, mulVec_scale, mulVec_scale, x, y, z, w]
  simp only [Vec4.scale_def, mul_one_div_cancel regular, zero_mul]
  rfl

/-- An inverse on the right of a square matrix is one on the left. -/
theorem inverse_mul {m : Mat4 K} (regular : m.det ≠ 0) : m.inverse * m = identity := by
  apply toMatrix_injective
  rw [toMatrix_mul, toMatrix_identity, mul_eq_one_comm, ← toMatrix_mul, mul_inverse regular,
    toMatrix_identity]

theorem isInvertible_iff {m : Mat4 K} : m.IsInvertible ↔ m.det ≠ 0 :=
  ⟨IsInvertible.det_ne_zero, fun regular => ⟨m.inverse, mul_inverse regular, inverse_mul regular⟩⟩

end Mat4

end GroundPlane
