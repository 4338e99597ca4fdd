import Mathlib
import GroundPlane.View.Camera
import GroundPlane.Proofs.Exact
import GroundPlane.Proofs.Matrix

/-!
# The matrices of a camera

Without rounding, the view of a camera keeps the last coordinate, and its projection mixes the last
coordinate with the depth alone. So the last coordinate of an unprojected position depends on its
depth only: it is `1 / near` on the near plane and `1 / far` on the far plane (`Camera.ofClip_near`,
`Camera.ofClip_far`). Both matrices have an inverse if the directions of the camera form a basis and
its frustum has volume.
-/

namespace GroundPlane

variable {K : Type} [Field K]

namespace Mat4

theorem mulVec_inverse_mulVec {m : Mat4 K} (invertible : m.IsInvertible) (v : Vec4 K) :
    m.mulVec (m.inverse.mulVec v) = v := by
  rw [← mul_mulVec, mul_inverse invertible.det_ne_zero, identity_mulVec]

theorem inverse_mulVec_mulVec {m : Mat4 K} (invertible : m.IsInvertible) (v : Vec4 K) :
    m.inverse.mulVec (m.mulVec v) = v := by
  rw [← mul_mulVec, inverse_mul invertible.det_ne_zero, identity_mulVec]

/-! ## Views -/

/-- The matrix keeps the last coordinate. -/
def IsAffine (m : Mat4 K) : Prop :=
  m.x.w = 0 ∧ m.y.w = 0 ∧ m.z.w = 0 ∧ m.w.w = 1

theorem IsAffine.mulVec_w {m : Mat4 K} (affine : m.IsAffine) (v : Vec4 K) :
    (m.mulVec v).w = v.w := by
  obtain ⟨x, y, z, w⟩ := affine
  change m.x.w * v.x + m.y.w * v.y + m.z.w * v.z + m.w.w * v.w = v.w
  rw [x, y, z, w]
  ring

theorem IsAffine.inverse_mulVec_w {m : Mat4 K} (affine : m.IsAffine) (invertible : m.IsInvertible)
    (v : Vec4 K) : (m.inverse.mulVec v).w = v.w := by
  rw [← affine.mulVec_w (m.inverse.mulVec v), mulVec_inverse_mulVec invertible]

/-- The rows of a view are `s`, `s × f` and `-f`, so that their volume is the area that `s` and `f`
span, squared. -/
theorem det_frame (s f : Vec3 K) (t : Vec4 K) (affine : t.w = 1) :
    det ⟨⟨s.x, (s.cross f).x, -f.x, 0⟩, ⟨s.y, (s.cross f).y, -f.y, 0⟩,
      ⟨s.z, (s.cross f).z, -f.z, 0⟩, t⟩ =
      s.dot s * f.dot f - s.dot f * s.dot f := by
  simp only [det, expand, adjugate, minors, lead, Vec4.mul_def, Vec4.add_def, Vec4.sub_def, affine,
    Vec3.cross, Vec3.dot]
  ring

end Mat4

variable [LinearOrder K] [FloorRing K] [SquareRoot K]

namespace Mat4

theorem isAffine_lookAt (eye target up : Vec3 K) : (lookAt eye target up).IsAffine :=
  ⟨rfl, rfl, rfl, rfl⟩

/-! ## Projections -/

variable [Elementary K] {fovY aspect near far : K}

theorem perspective_mulVec_z (v : Vec4 K) :
    ((perspective fovY aspect near far).mulVec v).z = far / (near - far) * (v.z + near * v.w) := by
  change 0 * v.x + 0 * v.y + far / (near - far) * v.z + far / (near - far) * near * v.w = _
  ring

theorem perspective_mulVec_w (v : Vec4 K) :
    ((perspective fovY aspect near far).mulVec v).w = -v.z := by
  change 0 * v.x + 0 * v.y + -1 * v.z + 0 * v.w = _
  ring

/-- A projection with an inverse does not flatten the depth: the point at the origin of clip space
is seen. -/
theorem perspective_depth_ne_zero (invertible : (perspective fovY aspect near far).IsInvertible) :
    far / (near - far) * near ≠ 0 := by
  intro flat
  have collapsed : (perspective fovY aspect near far).mulVec ⟨0, 0, 0, 1⟩ = ⟨0, 0, 0, 0⟩ := by
    rw [mulVec_def]
    simp only [perspective, flat]
    ext <;> ring
  have back := inverse_mulVec_mulVec invertible ⟨0, 0, 0, 1⟩
  rw [collapsed, mulVec_def] at back
  simp at back

theorem perspective_inverse_mulVec_w (invertible : (perspective fovY aspect near far).IsInvertible)
    (v : Vec4 K) :
    ((perspective fovY aspect near far).inverse.mulVec v).w =
      (v.z + far / (near - far) * v.w) / (far / (near - far) * near) := by
  have forth := mulVec_inverse_mulVec invertible v
  have depth := congrArg Vec4.z forth
  have last := congrArg Vec4.w forth
  rw [perspective_mulVec_z] at depth
  rw [perspective_mulVec_w] at last
  rw [eq_div_iff (perspective_depth_ne_zero invertible), ← depth, ← last]
  ring

theorem det_perspective :
    (perspective fovY aspect near far).det =
      Elementary.cos (0.5 * fovY) / Elementary.sin (0.5 * fovY) / aspect *
        (Elementary.cos (0.5 * fovY) / Elementary.sin (0.5 * fovY)) *
          (far / (near - far) * near) := by
  simp only [det, expand, adjugate, minors, lead, perspective, Vec4.mul_def, Vec4.add_def,
    Vec4.sub_def]
  ring

end Mat4

/-! ## Cameras -/

theorem Viewport.aspect_pos [IsStrictOrderedRing K] (v : Viewport K) : 0 < v.aspect := by
  unfold aspect
  split
  next valid =>
    simp only [isValid, Bool.and_eq_true, decide_eq_true_eq] at valid
    exact div_pos valid.1.1.1 valid.1.1.2
  next => exact one_pos

namespace Camera

/-- The direction that the camera looks in. -/
def forward (c : Camera K) : Vec3 K :=
  (c.target - c.eye).normalize

/-- The direction to the right of the camera. -/
def side (c : Camera K) : Vec3 K :=
  (c.forward.cross c.up).normalize

theorem det_view (c : Camera K) : c.view.det = c.side.dot c.side * c.forward.dot c.forward := by
  have frame := Mat4.det_frame c.side c.forward
    ⟨-c.eye.dot c.side, -c.eye.dot (c.side.cross c.forward), c.eye.dot c.forward, 1⟩ rfl
  have upright : c.side.dot c.forward = 0 := Vec3.dot_cross_scale_self c.forward c.up _
  rw [upright, mul_zero, sub_zero] at frame
  exact frame

/-- The directions of a camera form a basis unless one of them vanishes. -/
theorem view_isInvertible [IsStrictOrderedRing K] {c : Camera K} (forward : c.forward ≠ 0)
    (side : c.side ≠ 0) : c.view.IsInvertible := by
  rw [Mat4.isInvertible_iff, det_view]
  exact mul_ne_zero (Vec3.dot_self_ne_zero side) (Vec3.dot_self_ne_zero forward)

variable [Elementary K] {c : Camera K} {viewport : Viewport K}

theorem projection_isInvertible {aspect : K} (sin : Elementary.sin (0.5 * c.fovY) ≠ 0)
    (cos : Elementary.cos (0.5 * c.fovY) ≠ 0) (wide : aspect ≠ 0) (near : c.near ≠ 0)
    (far : c.far ≠ 0) (deep : c.near ≠ c.far) : (c.projection aspect).IsInvertible := by
  rw [Mat4.isInvertible_iff, projection, Mat4.det_perspective]
  have cot : Elementary.cos (0.5 * c.fovY) / Elementary.sin (0.5 * c.fovY) ≠ 0 :=
    div_ne_zero cos sin
  have range : c.far / (c.near - c.far) ≠ 0 := div_ne_zero far (sub_ne_zero.2 deep)
  exact mul_ne_zero (mul_ne_zero (div_ne_zero cot wide) cot) (mul_ne_zero range near)

section Unprojected

variable (view : c.view.IsInvertible) (projection : (c.projection viewport.aspect).IsInvertible)
include view projection

/-- The last coordinate of an unprojected position depends on its depth alone. -/
theorem ofClip_w (v : Vec4 K) :
    ((c.projector viewport).ofClip.mulVec v).w =
      (v.z + c.far / (c.near - c.far) * v.w) / (c.far / (c.near - c.far) * c.near) := by
  rw [Projector.ofClip, Mat4.mul_mulVec]
  refine ((Mat4.isAffine_lookAt c.eye c.target c.up).inverse_mulVec_w view _).trans ?_
  exact Mat4.perspective_inverse_mulVec_w projection v

theorem ofClip_near (ndc : Vec2 K) :
    ((c.projector viewport).ofClip.mulVec ((ndc.extend 0).extend 1)).w = 1 / c.near := by
  have range := left_ne_zero_of_mul (Mat4.perspective_depth_ne_zero projection)
  rw [ofClip_w view projection]
  change (0 + c.far / (c.near - c.far) * 1) / (c.far / (c.near - c.far) * c.near) = _
  rw [zero_add, mul_div_mul_left _ _ range]

theorem ofClip_far (ndc : Vec2 K) :
    ((c.projector viewport).ofClip.mulVec ((ndc.extend 1).extend 1)).w = 1 / c.far := by
  have depth := Mat4.perspective_depth_ne_zero projection
  obtain ⟨far, deep⟩ := div_ne_zero_iff.1 (left_ne_zero_of_mul depth)
  have near := right_ne_zero_of_mul depth
  rw [ofClip_w view projection]
  change (1 + c.far / (c.near - c.far) * 1) / (c.far / (c.near - c.far) * c.near) = _
  field_simp
  ring

theorem ofClip_near_ne_zero (ndc : Vec2 K) :
    ((c.projector viewport).ofClip.mulVec ((ndc.extend 0).extend 1)).w ≠ 0 := by
  rw [ofClip_near view projection]
  exact one_div_ne_zero (right_ne_zero_of_mul (Mat4.perspective_depth_ne_zero projection))

theorem ofClip_far_ne_zero (ndc : Vec2 K) :
    ((c.projector viewport).ofClip.mulVec ((ndc.extend 1).extend 1)).w ≠ 0 := by
  rw [ofClip_far view projection]
  exact one_div_ne_zero
    (div_ne_zero_iff.1 (left_ne_zero_of_mul (Mat4.perspective_depth_ne_zero projection))).1

end Unprojected

end Camera

/-! ## A camera on a hillside -/

/-- A camera five units from the origin, looking down on it over a right angle. -/
noncomputable def Camera.hillside : Camera ℝ where
  eye := ⟨0, 3, 4⟩
  target := 0
  up := ⟨0, 1, 0⟩
  fovY := Elementary.quarterTurn
  near := 1
  far := 10

namespace Camera

theorem hillside_forward : hillside.forward = ⟨0, -3 / 5, -4 / 5⟩ := by
  rw [forward, Vec3.normalize_of_length (by norm_num : (0 : ℝ) ≤ 5)]
  · change (⟨(0 - 0) * (1 / 5), (0 - 3) * (1 / 5), (0 - 4) * (1 / 5)⟩ : Vec3 ℝ) = _
    norm_num
  · change (0 - 0) * (0 - 0) + (0 - 3) * (0 - 3) + (0 - 4) * (0 - 4) = (5 * 5 : ℝ)
    norm_num

theorem hillside_side : hillside.side = ⟨1, 0, 0⟩ := by
  have cross : hillside.forward.cross hillside.up = ⟨4 / 5, 0, 0⟩ := by
    rw [hillside_forward]
    change (⟨-3 / 5 * 0 - 1 * (-4 / 5), -4 / 5 * 0 - 0 * 0, 0 * 1 - 0 * (-3 / 5)⟩ : Vec3 ℝ) = _
    norm_num
  rw [side, cross, Vec3.normalize_of_length (by norm_num : (0 : ℝ) ≤ 4 / 5)]
  · change (⟨4 / 5 * (1 / (4 / 5)), 0 * (1 / (4 / 5)), 0 * (1 / (4 / 5))⟩ : Vec3 ℝ) = _
    norm_num
  · change (4 / 5 * (4 / 5) + 0 * 0 + 0 * 0 : ℝ) = _
    norm_num

theorem hillside_forward_ne_zero : hillside.forward ≠ 0 := by
  rw [hillside_forward]
  intro zero
  have y : (-3 / 5 : ℝ) = 0 := congrArg Vec3.y zero
  norm_num at y

theorem hillside_side_ne_zero : hillside.side ≠ 0 := by
  rw [hillside_side]
  intro zero
  exact one_ne_zero (congrArg Vec3.x zero)

theorem hillside_half_fovY : (0.5 : ℝ) * hillside.fovY = Real.pi / 4 := by
  change (0.5 : ℝ) * (Real.pi / 2) = _
  ring

theorem hillside_sin_ne_zero : Elementary.sin (0.5 * hillside.fovY) ≠ 0 := by
  change Real.sin (0.5 * hillside.fovY) ≠ 0
  rw [hillside_half_fovY, Real.sin_pi_div_four]
  positivity

theorem hillside_cos_ne_zero : Elementary.cos (0.5 * hillside.fovY) ≠ 0 := by
  change Real.cos (0.5 * hillside.fovY) ≠ 0
  rw [hillside_half_fovY, Real.cos_pi_div_four]
  positivity

theorem hillside_view_isInvertible : hillside.view.IsInvertible :=
  view_isInvertible hillside_forward_ne_zero hillside_side_ne_zero

theorem hillside_projection_isInvertible {aspect : ℝ} (wide : aspect ≠ 0) :
    (hillside.projection aspect).IsInvertible := by
  apply projection_isInvertible hillside_sin_ne_zero hillside_cos_ne_zero wide
  · exact one_ne_zero
  · change (10 : ℝ) ≠ 0
    norm_num
  · change (1 : ℝ) ≠ 10
    norm_num

end Camera

end GroundPlane
