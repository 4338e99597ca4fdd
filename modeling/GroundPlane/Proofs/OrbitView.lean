import Mathlib
import GroundPlane.View.Orbit
import GroundPlane.Proofs.FacingNormal
import GroundPlane.Proofs.RoundingOrder

/-!
# The view of an orbiting camera

Without rounding, a camera whose directions have length one sees the world rotated and moved,
neither stretched nor mirrored (`Camera.linear_view_mem`). An orbiting camera is of that kind all
over its sphere, since the pitch keeps it off the poles, and it has the target in the middle of the
screen (`orbit_view_never_degenerates`).
-/

namespace GroundPlane

/-! ## Rotations -/

/-- The matrix with its rows and columns numbered. -/
def Mat3.toMatrix {α : Type} (m : Mat3 α) : Matrix (Fin 3) (Fin 3) α :=
  !![m.x.x, m.y.x, m.z.x;
     m.x.y, m.y.y, m.z.y;
     m.x.z, m.y.z, m.z.z]

namespace Camera

/-- The rows of a view before the translation: to the right, upwards, and backwards. -/
def frame {K : Type} [Field K] (s f : Vec3 K) : Matrix (Fin 3) (Fin 3) K :=
  !![s.x, s.y, s.z;
     (s.cross f).x, (s.cross f).y, (s.cross f).z;
     -f.x, -f.y, -f.z]

/-- The row upwards is perpendicular to the others, and as long as the area that they span. -/
theorem frame_mul_transpose {K : Type} [Field K] (s f : Vec3 K) :
    frame s f * (frame s f).transpose =
      !![s.dot s, 0, -s.dot f;
         0, s.dot s * f.dot f - s.dot f * s.dot f, 0;
         -s.dot f, 0, f.dot f] := by
  ext i j
  fin_cases i <;> fin_cases j <;>
    simp only [frame, Matrix.mul_apply, Fin.sum_univ_three, Vec3.cross, Vec3.dot,
      Matrix.transpose_apply,
      Matrix.of_apply, Matrix.cons_val, Fin.isValue, Fin.mk_one, Fin.reduceFinMk, Fin.zero_eta] <;>
    ring

theorem det_frame {K : Type} [Field K] (s f : Vec3 K) :
    (frame s f).det = s.dot s * f.dot f - s.dot f * s.dot f := by
  rw [Matrix.det_fin_three]
  change s.x * (s.cross f).y * -f.z - s.x * (s.cross f).z * -f.y - s.y * (s.cross f).x * -f.z +
    s.y * (s.cross f).z * -f.x + s.z * (s.cross f).x * -f.y - s.z * (s.cross f).y * -f.x = _
  simp only [Vec3.cross, Vec3.dot]
  ring

/-- If the directions of a camera have length one, the linear part of its view is a rotation. -/
theorem linear_view_mem {c : Camera ℝ} (forward : c.forward.dot c.forward = 1)
    (side : c.side.dot c.side = 1) :
    c.view.linear.toMatrix ∈ Matrix.specialOrthogonalGroup (Fin 3) ℝ := by
  have rows : c.view.linear.toMatrix = frame c.side c.forward := rfl
  rw [Matrix.mem_specialOrthogonalGroup_iff, Matrix.mem_orthogonalGroup_iff, rows,
    frame_mul_transpose, det_frame, forward, side, side_dot_forward, Matrix.one_fin_three]
  norm_num

theorem viewPosition_target {c : Camera ℝ} (forward : c.forward.dot c.forward = 1) {d : ℝ}
    (ahead : c.target - c.eye = c.forward * d) : c.viewPosition c.target = ⟨0, 0, -d⟩ := by
  rw [viewPosition_eq, ahead, viewDirection, Vec3.scale_dot, Vec3.scale_dot, Vec3.scale_dot,
    forward,
    Vec3.dot_comm, side_dot_forward, Vec3.dot_comm, Vec3.cross_dot_right, zero_mul, one_mul]

theorem view_mulVec (c : Camera ℝ) (point : Vec3 ℝ) :
    c.view.mulVec (point.extend 1) = (c.viewPosition point).extend 1 :=
  congrArg (Vec4.mk _ _ _) ((Mat4.isAffine_lookAt c.eye c.target c.up).mulVec_w _)

/-- What is straight ahead is in the middle of the screen, and its last clip coordinate is how far
ahead it is. -/
theorem toClip_of_ahead {c : Camera ℝ} {point : Vec3 ℝ} {d : ℝ}
    (ahead : c.view.mulVec (point.extend 1) = ⟨0, 0, -d, 1⟩) (aspect near far : ℝ) :
    let clip := (Projector.mk c.view (c.projection aspect) near far).toClip.mulVec (point.extend 1)
    clip.x = 0 ∧ clip.y = 0 ∧ clip.w = d := by
  intro clip
  have projected : clip = (c.projection aspect).mulVec ⟨0, 0, -d, 1⟩ := by
    rw [← ahead]
    exact Mat4.mul_mulVec _ _ _
  rw [projected, projection, Mat4.perspective_mulVec_x, Mat4.perspective_mulVec_y,
    Mat4.perspective_mulVec_w]
  exact ⟨mul_zero _, mul_zero _, neg_neg d⟩

end Camera

namespace OrbitCamera

open SinglePrecision

/-! ## Directions -/

variable {c : OrbitCamera ℝ}

/-- The direction from the camera to the target. -/
noncomputable def gaze (c : OrbitCamera ℝ) : Vec3 ℝ :=
  ⟨-(Real.sin c.yaw * Real.cos c.pitch), -Real.sin c.pitch, -(Real.cos c.yaw * Real.cos c.pitch)⟩

theorem gaze_dot_self (c : OrbitCamera ℝ) : c.gaze.dot c.gaze = 1 := by
  have yaw := Real.sin_sq_add_cos_sq c.yaw
  have pitch := Real.sin_sq_add_cos_sq c.pitch
  simp only [gaze, Vec3.dot]
  linear_combination Real.cos c.pitch ^ 2 * yaw + pitch

theorem target_sub_eye (c : OrbitCamera ℝ) : c.target - c.eye = c.gaze * c.distance := by
  have back (t a : ℝ) : t - (t + a * c.distance) = -a * c.distance := by
    rw [sub_add_cancel_left, neg_mul]
  exact Vec3.ext (back _ _) (back _ _) (back _ _)

theorem eye_sub_target (c : OrbitCamera ℝ) : c.eye - c.target = c.gaze * -c.distance := by
  have out (t a : ℝ) : t + a * c.distance - t = -a * -c.distance := by
    rw [add_sub_cancel_left, neg_mul_neg]
  exact Vec3.ext (out _ _) (out _ _) (out _ _)

theorem forward_eq (away : 0 < c.distance) : c.camera.forward = c.gaze := by
  change (c.target - c.eye).normalize = c.gaze
  rw [target_sub_eye, Vec3.normalize_scale _ away, Vec3.normalize_of_unit c.gaze_dot_self]

/-- The level direction to the right of the camera. -/
noncomputable def right (c : OrbitCamera ℝ) : Vec3 ℝ :=
  ⟨Real.cos c.yaw, 0, -Real.sin c.yaw⟩

theorem right_dot_self (c : OrbitCamera ℝ) : c.right.dot c.right = 1 := by
  simp only [right, Vec3.dot]
  linear_combination Real.sin_sq_add_cos_sq c.yaw

theorem gaze_cross_up (c : OrbitCamera ℝ) :
    c.gaze.cross ⟨0, 1, 0⟩ = c.right * Real.cos c.pitch := by
  simp only [gaze, right, Vec3.cross, Vec3.scale_def, Vec3.mk.injEq]
  refine ⟨?_, ?_, ?_⟩ <;> ring

/-- Short of a quarter turn, the camera does not look along its upward direction. -/
theorem side_eq (short : |c.pitch| < Real.pi / 2) (away : 0 < c.distance) :
    c.camera.side = c.right := by
  have upright : 0 < Real.cos c.pitch := Real.cos_pos_of_mem_Ioo (abs_lt.1 short)
  change (c.camera.forward.cross ⟨0, 1, 0⟩).normalize = c.right
  rw [forward_eq away, gaze_cross_up, Vec3.normalize_scale _ upright,
    Vec3.normalize_of_unit c.right_dot_self]

/-! ## The limit of the pitch -/

theorem pitchLimit_lt : (pitchLimit : ℝ) < Real.pi / 2 := by
  change Real.pi / 2 - 0.01 < Real.pi / 2
  norm_num

/-- The limit of a camera in single precision. -/
theorem toRat_pitchLimit : toRat pitchLimit = 13092909 / 8388608 := by
  change ((13092909 : Nat) : ℚ) * 2 ^ (-23 : Int) = 13092909 / 8388608
  norm_num

theorem toRat_pitchLimit_lt : (toRat pitchLimit : ℝ) < Real.pi / 2 := by
  have pi := Real.pi_gt_d2
  rw [toRat_pitchLimit]
  push_cast
  linarith

/-! ## The target in the view -/

/-- Let the pitch of a camera be short of a quarter turn, as it is within its limit, both the exact
one and the one of single precision, and let the camera stand off its target. Then the target is at
the camera's distance, the view is a rotation that follows a translation, and so has an inverse, the
camera is at the origin of the view, the target straight ahead, and in the middle of the screen
whatever its shape. -/
theorem orbit_view_never_degenerates (c : OrbitCamera ℝ) (short : |c.pitch| < Real.pi / 2)
    (away : 0 < c.distance) :
    let view := c.camera.view
    (pitchLimit < Real.pi / 2 ∧ toRat pitchLimit < Real.pi / 2) ∧
      Real.sqrt ((c.eye - c.target).dot (c.eye - c.target)) = c.distance ∧
      view.linear.toMatrix ∈ Matrix.specialOrthogonalGroup (Fin 3) ℝ ∧
      view.IsAffine ∧ view.IsInvertible ∧
      view.mulVec (c.eye.extend 1) = ⟨0, 0, 0, 1⟩ ∧
      view.mulVec (c.target.extend 1) = ⟨0, 0, -c.distance, 1⟩ ∧
      ∀ aspect : ℝ,
        let p : Projector ℝ := ⟨view, c.camera.projection aspect, c.near, c.far⟩
        (p.toClip.mulVec (c.target.extend 1)).w = c.distance ∧
          (p.project c.target).x = 0 ∧ (p.project c.target).y = 0 := by
  intro view
  have forward : c.camera.forward.dot c.camera.forward = 1 := by rw [forward_eq away, gaze_dot_self]
  have side : c.camera.side.dot c.camera.side = 1 := by rw [side_eq short away, right_dot_self]
  have regular : view.det ≠ 0 := by
    rw [Camera.det_view, forward, side, one_mul]
    exact one_ne_zero
  have ahead : c.camera.viewPosition c.target = ⟨0, 0, -c.distance⟩ :=
    Camera.viewPosition_target forward (forward_eq away ▸ c.target_sub_eye)
  have eye : view.mulVec (c.eye.extend 1) = ⟨0, 0, 0, 1⟩ :=
    (c.camera.view_mulVec c.eye).trans (congrArg (Vec3.extend · 1) c.camera.viewPosition_eye)
  have target : view.mulVec (c.target.extend 1) = ⟨0, 0, -c.distance, 1⟩ :=
    (c.camera.view_mulVec c.target).trans (congrArg (Vec3.extend · 1) ahead)
  refine ⟨⟨pitchLimit_lt, toRat_pitchLimit_lt⟩, ?_, Camera.linear_view_mem forward side,
    Mat4.isAffine_lookAt _ _ _, Mat4.isInvertible_iff.2 regular, eye, target, fun aspect => ?_⟩
  · rw [eye_sub_target, Vec3.scale_dot_scale, gaze_dot_self, one_mul, neg_mul_neg,
      Real.sqrt_mul_self away.le]
  · obtain ⟨x, y, w⟩ := Camera.toClip_of_ahead target aspect c.near c.far
    exact ⟨w, div_eq_zero_iff.2 (.inl x), div_eq_zero_iff.2 (.inl y)⟩

/-- Cameras at both limits of the pitch, almost straight above their target. -/
theorem orbit_view_never_degenerates_overhead :
    let above (pitch : ℝ) : OrbitCamera ℝ :=
      ⟨⟨1, -2, 3⟩, Real.pi, pitch, 8, Real.pi / 4, 1, 100, 0, 0⟩
    ∀ pitch ∈ [pitchLimit, (toRat pitchLimit : ℝ)],
      (|(above pitch).pitch| < Real.pi / 2 ∧ 0 < (above pitch).distance) ∧
      (above pitch).camera.view.IsInvertible ∧
      (above pitch).camera.view.mulVec (Vec3.extend ⟨1, -2, 3⟩ 1) = ⟨0, 0, -8, 1⟩ := by
  intro above pitch mem
  have exact : 0 ≤ (pitchLimit : ℝ) := by
    change 0 ≤ Real.pi / 2 - 0.01
    linarith [Real.pi_gt_three]
  have rounded : (0 : ℝ) ≤ toRat pitchLimit := by
    rw [toRat_pitchLimit]
    norm_num
  have short : |(above pitch).pitch| < Real.pi / 2 := by
    simp only [List.mem_cons, List.not_mem_nil, or_false] at mem
    rcases mem with rfl | rfl
    · exact (abs_of_nonneg exact).trans_lt pitchLimit_lt
    · exact (abs_of_nonneg rounded).trans_lt toRat_pitchLimit_lt
  have away : 0 < (above pitch).distance := by norm_num [above]
  obtain ⟨-, -, -, -, invertible, -, target, -⟩ :=
    orbit_view_never_degenerates (above pitch) short away
  exact ⟨⟨short, away⟩, invertible, target⟩

end OrbitCamera

end GroundPlane
