import Mathlib
import GroundPlane.Geometry.Vector
import GroundPlane.Proofs.Exact

/-!
# Vectors over a field

What the operations on vectors do to the components, and the laws that hold where the arithmetic of
the components is exact.
-/

namespace GroundPlane

attribute [ext] Vec2 Vec3 Vec4

variable {α K : Type}

namespace Vec2

theorem add_def [Add α] (a b : Vec2 α) : a + b = ⟨a.x + b.x, a.y + b.y⟩ := rfl

theorem scale_def [Mul α] (a : Vec2 α) (s : α) : a * s = ⟨a.x * s, a.y * s⟩ := rfl

section Group

variable [AddCommGroup α]

protected theorem zero_add (v : Vec2 α) : 0 + v = v :=
  congrArg₂ mk (zero_add v.x) (zero_add v.y)

protected theorem add_zero (v : Vec2 α) : v + 0 = v :=
  congrArg₂ mk (add_zero v.x) (add_zero v.y)

protected theorem add_assoc (u v w : Vec2 α) : u + v + w = u + (v + w) :=
  congrArg₂ mk (add_assoc u.x v.x w.x) (add_assoc u.y v.y w.y)

protected theorem sub_self (v : Vec2 α) : v - v = 0 :=
  congrArg₂ mk (sub_self v.x) (sub_self v.y)

protected theorem sub_add_sub_cancel (u v w : Vec2 α) : v - u + (w - v) = w - u :=
  congrArg₂ mk (sub_add_sub_cancel' v.x u.x w.x) (sub_add_sub_cancel' v.y u.y w.y)

end Group

end Vec2

namespace Vec3

theorem add_def [Add α] (a b : Vec3 α) : a + b = ⟨a.x + b.x, a.y + b.y, a.z + b.z⟩ := rfl

theorem sub_def [Sub α] (a b : Vec3 α) : a - b = ⟨a.x - b.x, a.y - b.y, a.z - b.z⟩ := rfl

theorem scale_def [Mul α] (a : Vec3 α) (s : α) : a * s = ⟨a.x * s, a.y * s, a.z * s⟩ := rfl

theorem div_def [Div α] (a : Vec3 α) (s : α) : a / s = ⟨a.x / s, a.y / s, a.z / s⟩ := rfl

/-! ## Products -/

section Field

variable [Field K]

theorem dot_comm (a b : Vec3 K) : a.dot b = b.dot a := by
  simp only [dot]
  ring

theorem dot_add (n a b : Vec3 K) : n.dot (a + b) = n.dot a + n.dot b := by
  simp only [dot, add_def]
  ring

theorem dot_sub (n a b : Vec3 K) : n.dot (a - b) = n.dot a - n.dot b := by
  simp only [dot, sub_def]
  ring

theorem scale_dot (a b : Vec3 K) (s : K) : (a * s).dot b = a.dot b * s := by
  simp only [scale_def, dot]
  ring

theorem scale_dot_scale (a : Vec3 K) (s : K) : (a * s).dot (a * s) = a.dot a * (s * s) := by
  rw [scale_dot, dot_comm, scale_dot, mul_assoc]

theorem cross_dot_left (a b : Vec3 K) : (a.cross b).dot a = 0 := by
  simp only [cross, dot]
  ring

theorem cross_dot_right (a b : Vec3 K) : (a.cross b).dot b = 0 := by
  simp only [cross, dot]
  ring

theorem dot_cross_scale_self (a b : Vec3 K) (s : K) : (a.cross b * s).dot a = 0 := by
  rw [scale_dot, cross_dot_left, zero_mul]

/-- A vector as a combination of the cross product of two others and of two vectors across it. -/
theorem scale_cross_dot_self (a b n : Vec3 K) :
    n * (a.cross b).dot (a.cross b) =
      a.cross b * n.dot (a.cross b) + b.cross (a.cross b) * n.dot a +
        (a.cross b).cross a * n.dot b := by
  simp only [scale_def, add_def, cross, dot, mk.injEq]
  refine ⟨?_, ?_, ?_⟩ <;> ring

/-- A vector that is perpendicular to two others is a multiple of their cross product. -/
theorem eq_cross_scale {a b n : Vec3 K} (regular : (a.cross b).dot (a.cross b) ≠ 0)
    (ha : n.dot a = 0) (hb : n.dot b = 0) :
    n = a.cross b * (n.dot (a.cross b) / (a.cross b).dot (a.cross b)) := by
  have scaled := scale_cross_dot_self a b n
  rw [ha, hb] at scaled
  simp only [scale_def, add_def, mul_zero, add_zero, mk.injEq] at scaled
  obtain ⟨x, y, z⟩ := scaled
  ext
  · exact (eq_div_of_mul_eq regular x).trans (mul_div_assoc _ _ _)
  · exact (eq_div_of_mul_eq regular y).trans (mul_div_assoc _ _ _)
  · exact (eq_div_of_mul_eq regular z).trans (mul_div_assoc _ _ _)

variable [LinearOrder K]

theorem ne_zero_of_dot_pos {v d : Vec3 K} (ahead : 0 < v.dot d) : v ≠ 0 := by
  rintro rfl
  change 0 < 0 * d.x + 0 * d.y + 0 * d.z at ahead
  simp at ahead

variable [IsStrictOrderedRing K]

theorem dot_self_ne_zero {v : Vec3 K} (nonzero : v ≠ 0) : v.dot v ≠ 0 := by
  intro zero
  change v.x * v.x + v.y * v.y + v.z * v.z = 0 at zero
  have x := mul_self_nonneg v.x
  have y := mul_self_nonneg v.y
  have z := mul_self_nonneg v.z
  apply nonzero
  ext
  · exact mul_self_eq_zero.1 (by linarith)
  · exact mul_self_eq_zero.1 (by linarith)
  · exact mul_self_eq_zero.1 (by linarith)

theorem dot_self_pos {v : Vec3 K} (nonzero : v ≠ 0) : 0 < v.dot v :=
  lt_of_le_of_ne
    (add_nonneg (add_nonneg (mul_self_nonneg _) (mul_self_nonneg _)) (mul_self_nonneg _))
    (dot_self_ne_zero nonzero).symm

end Field

/-! ## Vectors of length one -/

theorem normalize_def (v : Vec3 ℝ) : v.normalize = v * (1 / Real.sqrt (v.dot v)) := rfl

theorem normalize_of_length {v : Vec3 ℝ} {l : ℝ} (hl : 0 ≤ l) (length : v.dot v = l * l) :
    v.normalize = v * (1 / l) := by
  rw [normalize_def, length, Real.sqrt_mul_self hl]

theorem normalize_dot_self {v : Vec3 ℝ} (nonzero : v ≠ 0) : v.normalize.dot v.normalize = 1 := by
  have positive := dot_self_pos nonzero
  rw [normalize_def, scale_dot_scale, div_mul_div_comm, one_mul, Real.mul_self_sqrt positive.le,
    mul_one_div_cancel positive.ne']

theorem normalize_of_unit {v : Vec3 ℝ} (unit : v.dot v = 1) : v.normalize = v := by
  rw [normalize_def, unit, Real.sqrt_one, one_div_one, scale_def]
  simp only [mul_one]

theorem normalize_scale (v : Vec3 ℝ) {k : ℝ} (positive : 0 < k) :
    (v * k).normalize = v.normalize := by
  have factor : k * (1 / (Real.sqrt (v.dot v) * k)) = 1 / Real.sqrt (v.dot v) := by
    rw [one_div, mul_inv_rev, mul_inv_cancel_left₀ positive.ne', one_div]
  rw [normalize_def, normalize_def, scale_dot_scale, Real.sqrt_mul' _ (mul_self_nonneg k),
    Real.sqrt_mul_self positive.le, ← factor]
  simp only [scale_def, mul_assoc]

theorem normalize_dot_pos {v d : Vec3 ℝ} (nonzero : v ≠ 0) (ahead : 0 < v.dot d) :
    0 < v.normalize.dot d := by
  rw [normalize_def, scale_dot]
  exact mul_pos ahead (one_div_pos.2 (Real.sqrt_pos.2 (dot_self_pos nonzero)))

theorem normalize_dot_eq_zero {v d : Vec3 ℝ} (perpendicular : v.dot d = 0) :
    v.normalize.dot d = 0 := by
  rw [normalize_def, scale_dot, perpendicular, zero_mul]

end Vec3

namespace Vec4

theorem add_def [Add α] (a b : Vec4 α) :
    a + b = ⟨a.x + b.x, a.y + b.y, a.z + b.z, a.w + b.w⟩ := rfl

theorem sub_def [Sub α] (a b : Vec4 α) :
    a - b = ⟨a.x - b.x, a.y - b.y, a.z - b.z, a.w - b.w⟩ := rfl

theorem mul_def [Mul α] (a b : Vec4 α) :
    a * b = ⟨a.x * b.x, a.y * b.y, a.z * b.z, a.w * b.w⟩ := rfl

theorem scale_def [Mul α] (a : Vec4 α) (s : α) : a * s = ⟨a.x * s, a.y * s, a.z * s, a.w * s⟩ := rfl

/-! ## Homogeneous coordinates -/

variable [Field K]

theorem dehomogenize_extend {v : Vec4 K} (hv : v.w ≠ 0) :
    v.dehomogenize.extend 1 = v * (1 / v.w) := by
  rw [scale_def]
  change (⟨v.x / v.w, v.y / v.w, v.z / v.w, 1⟩ : Vec4 K) = _
  rw [mk.injEq, mul_one_div_cancel hv]
  refine ⟨?_, ?_, ?_, rfl⟩ <;> ring

theorem extend_scale_dehomogenize (a : Vec3 K) {s : K} (hs : s ≠ 0) :
    (a.extend 1 * s).dehomogenize = a := by
  change (⟨a.x * s / (1 * s), a.y * s / (1 * s), a.z * s / (1 * s)⟩ : Vec3 K) = a
  rw [one_mul, mul_div_cancel_right₀ _ hs, mul_div_cancel_right₀ _ hs, mul_div_cancel_right₀ _ hs]

end Vec4

end GroundPlane
