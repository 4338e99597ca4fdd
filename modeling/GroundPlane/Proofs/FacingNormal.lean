import Mathlib
import GroundPlane.Lighting.Stage
import GroundPlane.Proofs.ViewSpace

/-!
# The normal across the screen faces the camera

The lighting stage finds a normal from the positions seen at a pixel, to its right and below it.
Without rounding, it is a unit vector, perpendicular to both changes of position, that points to the
side of the surface on which the camera is (`derivative_normal_faces_camera`). The three positions
and the eye span a volume whose sign is decided before the camera: there, the positions are
multiples of three fixed directions, one for each pixel (`pixels_volume`), and the view keeps the
sign of volumes (`viewDirection_volume`).
-/

namespace GroundPlane

/-- One of the vectors is a multiple of the other. -/
def Vec3.IsParallel {K : Type} [Field K] (a b : Vec3 K) : Prop :=
  (∃ s : K, a = b * s) ∨ ∃ s : K, b = a * s

theorem Vec3.IsParallel.cross_dot {K : Type} [Field K] {a b : Vec3 K} (parallel : a.IsParallel b)
    (d : Vec3 K) : (b.cross a).dot d = 0 := by
  obtain ⟨s, rfl⟩ | ⟨s, rfl⟩ := parallel
  · simp only [scale_def, cross, dot]
    ring
  · simp only [scale_def, cross, dot]
    ring

variable {K : Type} [Field K] [LinearOrder K] [FloorRing K] [SquareRoot K]

/-! ## Volumes before the camera -/

theorem Camera.side_dot_forward (c : Camera K) : c.side.dot c.forward = 0 :=
  Vec3.dot_cross_scale_self c.forward c.up _

/-- The view of a camera scales volumes by a square. -/
theorem Camera.viewDirection_volume (c : Camera K) (a b d : Vec3 K) :
    ((c.viewDirection a).cross (c.viewDirection b)).dot (c.viewDirection d) =
      c.side.dot c.side * c.forward.dot c.forward * (a.cross b).dot d := by
  have frame (s f : Vec3 K) :
      ((⟨a.dot s, a.dot (s.cross f), -a.dot f⟩ : Vec3 K).cross
        ⟨b.dot s, b.dot (s.cross f), -b.dot f⟩).dot
        ⟨d.dot s, d.dot (s.cross f), -d.dot f⟩ =
      (s.dot s * f.dot f - s.dot f * s.dot f) * (a.cross b).dot d := by
    simp only [Vec3.cross, Vec3.dot]
    ring
  have volume := frame c.side c.forward
  rw [c.side_dot_forward, mul_zero, sub_zero] at volume
  exact volume

theorem Camera.viewDirection_sub (c : Camera K) (a b : Vec3 K) :
    c.viewDirection (a - b) = c.viewPosition a - c.viewPosition b := by
  rw [viewPosition_eq, viewPosition_eq]
  simp only [viewDirection, Vec3.sub_def, Vec3.dot, Vec3.mk.injEq]
  refine ⟨?_, ?_, ?_⟩ <;> ring

theorem Camera.viewPosition_eye (c : Camera K) : c.viewPosition c.eye = 0 := by
  rw [viewPosition_eq]
  simp only [viewDirection, Vec3.sub_def, sub_self, Vec3.dot, zero_mul, add_zero, neg_zero]
  rfl

/-- Three points ahead of the camera that appear at a position on the screen, `δ` to its right and
`ε` below it, after scaling by `a` and `b`. The volume that they span with the eye depends on their
depths only. -/
theorem pixels_volume {a b x y δ ε depth depth' depth'' : K} {here right below : Vec3 K}
    (at_here : (⟨a * here.x, b * here.y, here.z⟩ : Vec3 K) = ⟨x * depth, y * depth, -depth⟩)
    (at_right : (⟨a * right.x, b * right.y, right.z⟩ : Vec3 K) =
      ⟨(x + δ) * depth', y * depth', -depth'⟩)
    (at_below : (⟨a * below.x, b * below.y, below.z⟩ : Vec3 K) =
      ⟨x * depth'', (y - ε) * depth'', -depth''⟩) :
    a * b * ((below - here).cross (right - here)).dot (0 - here) =
      δ * ε * (depth * depth' * depth'') := by
  obtain ⟨xₕ, yₕ, zₕ⟩ := Vec3.mk.inj at_here
  obtain ⟨xᵣ, yᵣ, zᵣ⟩ := Vec3.mk.inj at_right
  obtain ⟨xₗ, yₗ, zₗ⟩ := Vec3.mk.inj at_below
  calc a * b * ((below - here).cross (right - here)).dot (0 - here)
      = a * right.x * (b * below.y * here.z - b * here.y * below.z) -
          b * right.y * (a * below.x * here.z - a * here.x * below.z) +
          right.z * (a * below.x * (b * here.y) - b * below.y * (a * here.x)) := by
        change a * b * ((below - here).cross (right - here)).dot (⟨0, 0, 0⟩ - here) = _
        simp only [Vec3.sub_def, Vec3.cross, Vec3.dot]
        ring
    _ = δ * ε * (depth * depth' * depth'') := by
        rw [xₕ, yₕ, zₕ, xᵣ, yᵣ, zᵣ, xₗ, yₗ, zₗ]
        ring

/-! ## Pixels -/

namespace Viewport

variable (v : Viewport K) (px py : K)

theorem toNdc_right :
    v.toNdc (px + 1) py = ⟨(v.toNdc px py).x + 2 / v.width, (v.toNdc px py).y⟩ := by
  have two : (2.0 : K) = 2 := by norm_num
  rw [toNdc, Vec2.mk.injEq]
  refine ⟨?_, rfl⟩
  change (px + 1) / v.width * 2.0 - 1 = px / v.width * 2.0 - 1 + 2 / v.width
  rw [two]
  ring

theorem toNdc_below :
    v.toNdc px (py + 1) = ⟨(v.toNdc px py).x, (v.toNdc px py).y - 2 / v.height⟩ := by
  have two : (2.0 : K) = 2 := by norm_num
  rw [toNdc, Vec2.mk.injEq]
  refine ⟨rfl, ?_⟩
  change 1 - (py + 1) / v.height * 2.0 = 1 - py / v.height * 2.0 - 2 / v.height
  rw [two]
  ring

end Viewport

namespace Camera

/-- The directions of the camera form a basis, and its field of view is less than half a turn. -/
structure IsProper (c : Camera ℝ) : Prop where
  forward : c.forward ≠ 0
  side : c.side ≠ 0
  open_view : 0 < c.fovY
  half_turn : c.fovY < Real.pi

theorem IsProper.cot_pos {c : Camera ℝ} (proper : c.IsProper) :
    0 < Elementary.cos (0.5 * c.fovY) / Elementary.sin (0.5 * c.fovY) := by
  have half : (0.5 : ℝ) * c.fovY = c.fovY / 2 := by ring
  have open_view := proper.open_view
  have half_turn := proper.half_turn
  rw [half]
  refine div_pos (Real.cos_pos_of_mem_Ioo ⟨?_, ?_⟩) (Real.sin_pos_of_pos_of_lt_pi ?_ ?_) <;>
    linarith

variable [Elementary K]

/-- A point is seen at a position of the viewport, in pixels: it lies ahead of the camera and is
projected there. -/
def Sees (c : Camera K) (viewport : Viewport K) (px py : K) (point : Vec3 K) : Prop :=
  0 < c.viewDepth point ∧ ((c.projector viewport).project point).x = (viewport.toNdc px py).x ∧
    ((c.projector viewport).project point).y = (viewport.toNdc px py).y

/-- Three points are seen at a pixel, at the pixel to its right and at the pixel below it. -/
structure SeesPatch (c : Camera K) (viewport : Viewport K) (px py : K) (points : Patch (Vec3 K)) :
    Prop where
  here : c.Sees viewport px py points.here
  right : c.Sees viewport (px + 1) py points.right
  below : c.Sees viewport px (py + 1) points.below

variable {c : Camera K} {viewport : Viewport K}

theorem Sees.viewPosition {px py : K} {point : Vec3 K} (seen : c.Sees viewport px py point) :
    (⟨Elementary.cos (0.5 * c.fovY) / Elementary.sin (0.5 * c.fovY) / viewport.aspect *
      (c.viewPosition point).x,
      Elementary.cos (0.5 * c.fovY) / Elementary.sin (0.5 * c.fovY) * (c.viewPosition point).y,
      (c.viewPosition point).z⟩ : Vec3 K) =
    ⟨(viewport.toNdc px py).x * c.viewDepth point, (viewport.toNdc px py).y * c.viewDepth point,
      -c.viewDepth point⟩ := by
  obtain ⟨ahead, x, y⟩ := seen
  rw [project_x, div_eq_iff ahead.ne'] at x
  rw [project_y, div_eq_iff ahead.ne'] at y
  rw [x, y, viewDepth, neg_neg]

/-- The changes of position across the screen span a volume with the direction to the eye, counted
positive. -/
theorem SeesPatch.volume_pos [IsStrictOrderedRing K] {px py : K} {points : Patch (Vec3 K)}
    (forward : c.forward ≠ 0) (side : c.side ≠ 0)
    (cot : 0 < Elementary.cos (0.5 * c.fovY) / Elementary.sin (0.5 * c.fovY))
    (valid : viewport.isValid) (seen : c.SeesPatch viewport px py points) :
    0 < (points.ddy.cross points.ddx).dot (c.eye - points.here) := by
  have scale := mul_pos (div_pos cot viewport.aspect_pos) cot
  have square := mul_pos (Vec3.dot_self_pos side) (Vec3.dot_self_pos forward)
  have before :
      c.side.dot c.side * c.forward.dot c.forward *
        (points.ddy.cross points.ddx).dot (c.eye - points.here) =
      ((c.viewPosition points.below - c.viewPosition points.here).cross
        (c.viewPosition points.right - c.viewPosition points.here)).dot
          (0 - c.viewPosition points.here) := by
    rw [← viewDirection_volume, Patch.ddy, Patch.ddx, viewDirection_sub, viewDirection_sub,
      viewDirection_sub, viewPosition_eye]
  -- one pixel to the right and one pixel down the screen, where the device coordinate falls
  have right := seen.right.viewPosition
  have below := seen.below.viewPosition
  rw [viewport.toNdc_right] at right
  rw [viewport.toNdc_below] at below
  have span := pixels_volume seen.here.viewPosition right below
  simp only [Viewport.isValid, Bool.and_eq_true, decide_eq_true_eq] at valid
  obtain ⟨⟨⟨width, height⟩, -⟩, -⟩ := valid
  have pixels : 0 < 2 / viewport.width * (2 / viewport.height) :=
    mul_pos (div_pos two_pos width) (div_pos two_pos height)
  have depths := mul_pos (mul_pos seen.here.1 seen.right.1) seen.below.1
  rw [← before] at span
  exact (mul_pos_iff_of_pos_left square).1
    ((mul_pos_iff_of_pos_left scale).1 (span ▸ mul_pos pixels depths))

end Camera

/-! ## The camera on the hillside -/

namespace Camera

theorem hillside_isProper : hillside.IsProper where
  forward := hillside_forward_ne_zero
  side := hillside_side_ne_zero
  open_view := Real.pi_div_two_pos
  half_turn := half_lt_self Real.pi_pos

theorem hillside_isValid : (⟨2, 1⟩ : Viewport ℝ).isValid := by
  simp [Viewport.isValid, Scalar.isFinite]

theorem hillside_sees {px py d : ℝ} {point : Vec3 ℝ} (hd : 0 < d)
    (direction : hillside.viewPosition point =
      ⟨2 * (Viewport.toNdc ⟨2, 1⟩ px py).x * d, (Viewport.toNdc ⟨2, 1⟩ px py).y * d, -d⟩) :
    hillside.Sees ⟨2, 1⟩ px py point := by
  have ahead : hillside.viewDepth point = d := by rw [viewDepth, direction, neg_neg]
  have aspect : (⟨2, 1⟩ : Viewport ℝ).aspect = 2 := (if_pos hillside_isValid).trans (div_one 2)
  have cot : Elementary.cos (0.5 * hillside.fovY) / Elementary.sin (0.5 * hillside.fovY) = 1 := by
    rw [hillside_half_fovY]
    change Real.cos (Real.pi / 4) / Real.sin (Real.pi / 4) = 1
    rw [Real.cos_pi_div_four, Real.sin_pi_div_four, div_self (by positivity)]
  refine ⟨ahead ▸ hd, ?_, ?_⟩
  · rw [project_x, ahead, direction, cot, aspect, div_eq_iff hd.ne']
    ring
  · rw [project_y, ahead, direction, cot, div_eq_iff hd.ne']
    ring

/-- The points of the ground seen at the center of the screen, a pixel to its right and a pixel
below it. -/
theorem hillside_seesPatch :
    hillside.SeesPatch ⟨2, 1⟩ 1 (1 / 2) ⟨⟨0, 0, 0⟩, ⟨10, 0, 0⟩, ⟨0, 0, 50 / 11⟩⟩ where
  here := by
    apply hillside_sees (d := 5) (by norm_num)
    rw [hillside_viewPosition]
    simp only [Viewport.toNdc]
    norm_num
  right := by
    apply hillside_sees (d := 5) (by norm_num)
    rw [hillside_viewPosition]
    simp only [Viewport.toNdc]
    norm_num
  below := by
    apply hillside_sees (d := 15 / 11) (by norm_num)
    rw [hillside_viewPosition]
    simp only [Viewport.toNdc]
    norm_num

end Camera

/-! ## The normal -/

/-- If three points are seen by a proper camera at a pixel, to its right and below it, then the
changes of position are not parallel, and the normal that the lighting stage finds is a unit vector,
perpendicular to both, that points to the side of the camera. -/
theorem Lighting.derivative_normal_faces_camera (c : Camera ℝ) (viewport : Viewport ℝ) (px py : ℝ)
    (points : Patch (Vec3 ℝ)) (proper : c.IsProper) (valid : viewport.isValid)
    (seen : c.SeesPatch viewport px py points) :
    let n := normalOfDerivatives points.ddx points.ddy
    ¬ points.ddx.IsParallel points.ddy ∧ n.dot n = 1 ∧ n.dot points.ddx = 0 ∧ n.dot points.ddy = 0 ∧
      0 < n.dot (c.eye - points.here) := by
  intro n
  have volume := seen.volume_pos proper.forward proper.side proper.cot_pos valid
  have nonzero : points.ddy.cross points.ddx ≠ 0 := Vec3.ne_zero_of_dot_pos volume
  refine ⟨fun parallel => volume.ne' (parallel.cross_dot _), Vec3.normalize_dot_self nonzero,
    ?_, ?_, ?_⟩
  · exact Vec3.normalize_dot_eq_zero (Vec3.cross_dot_right _ _)
  · exact Vec3.normalize_dot_eq_zero (Vec3.cross_dot_left _ _)
  · exact Vec3.normalize_dot_pos nonzero volume

/-- The ground before a camera on a hillside, at three neighbouring pixels. -/
theorem Lighting.derivative_normal_faces_camera_hillside :
    let c := Camera.hillside
    let points : Patch (Vec3 ℝ) := ⟨⟨0, 0, 0⟩, ⟨10, 0, 0⟩, ⟨0, 0, 50 / 11⟩⟩
    let n := normalOfDerivatives points.ddx points.ddy
    c.IsProper ∧ c.SeesPatch ⟨2, 1⟩ 1 (1 / 2) points ∧
      ¬ points.ddx.IsParallel points.ddy ∧ n.dot n = 1 ∧ n.dot points.ddx = 0 ∧
      n.dot points.ddy = 0 ∧
      0 < n.dot (c.eye - points.here) :=
  ⟨Camera.hillside_isProper, Camera.hillside_seesPatch,
    derivative_normal_faces_camera Camera.hillside ⟨2, 1⟩ 1 (1 / 2) _ Camera.hillside_isProper
      Camera.hillside_isValid Camera.hillside_seesPatch⟩

end GroundPlane
