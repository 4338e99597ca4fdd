import Mathlib
import GroundPlane.Proofs.RoundTrip

/-!
# Points as the camera sees them

Without rounding, the coordinates of a point before the camera decide all that its projector says
about it. The last clip coordinate is the depth ahead of the camera (`toClip_w`), the depth of the
depth buffer is a hyperbola in it (`depth_eq`), and the linear depth is its share of the far
distance (`linearDepth_eq`). Along the view ray of a pixel, the depth grows evenly from the near to
the far distance (`viewDepth_through`).
-/

namespace GroundPlane

variable {K : Type} [Field K] [LinearOrder K] [FloorRing K] [SquareRoot K]

namespace Mat4

variable [Elementary K] {fovY aspect near far : K}

theorem perspective_mulVec_x (v : Vec4 K) :
    ((perspective fovY aspect near far).mulVec v).x =
      Elementary.cos (0.5 * fovY) / Elementary.sin (0.5 * fovY) / aspect * v.x := by
  simp [mulVec_def, perspective]

theorem perspective_mulVec_y (v : Vec4 K) :
    ((perspective fovY aspect near far).mulVec v).y =
      Elementary.cos (0.5 * fovY) / Elementary.sin (0.5 * fovY) * v.y := by
  simp [mulVec_def, perspective]

end Mat4

namespace Camera

/-- The coordinates of a point before the camera: to the right, upwards, and backwards. -/
def viewPosition (c : Camera K) (point : Vec3 K) : Vec3 K :=
  (c.view.mulVec (point.extend 1)).xyz

/-- How far a point lies ahead of the camera. -/
def viewDepth (c : Camera K) (point : Vec3 K) : K :=
  -(c.viewPosition point).z

/-- The components of a vector along the directions of the camera: to the right, upwards, and
backwards. -/
def viewDirection (c : Camera K) (d : Vec3 K) : Vec3 K :=
  ⟨d.dot c.side, d.dot (c.side.cross c.forward), -d.dot c.forward⟩

theorem viewPosition_eq (c : Camera K) (point : Vec3 K) :
    c.viewPosition point = c.viewDirection (point - c.eye) := by
  have along (d : Vec3 K) :
      d.x * point.x + d.y * point.y + d.z * point.z + -c.eye.dot d * 1 = (point - c.eye).dot d := by
    simp only [Vec3.dot, Vec3.sub_def]
    ring
  have behind :
      -c.forward.x * point.x + -c.forward.y * point.y + -c.forward.z * point.z +
        c.eye.dot c.forward * 1 =
      -(point - c.eye).dot c.forward := by
    rw [← along c.forward]
    ring
  rw [viewDirection, ← along c.side, ← along (c.side.cross c.forward), ← behind]
  rfl

variable [Elementary K] {c : Camera K} {viewport : Viewport K}

theorem toClip_mulVec (point : Vec3 K) :
    (c.projector viewport).toClip.mulVec (point.extend 1) =
      (c.projection viewport.aspect).mulVec ((c.viewPosition point).extend 1) := by
  have last : (c.view.mulVec (point.extend 1)).w = 1 :=
    (Mat4.isAffine_lookAt c.eye c.target c.up).mulVec_w _
  have extended : (c.viewPosition point).extend 1 = c.view.mulVec (point.extend 1) :=
    congrArg (Vec4.mk _ _ _) last.symm
  rw [extended, Projector.toClip, Mat4.mul_mulVec]
  rfl

theorem toClip_w (point : Vec3 K) :
    ((c.projector viewport).toClip.mulVec (point.extend 1)).w = c.viewDepth point := by
  rw [toClip_mulVec]
  exact Mat4.perspective_mulVec_w _

theorem project_x (point : Vec3 K) :
    ((c.projector viewport).project point).x =
      Elementary.cos (0.5 * c.fovY) / Elementary.sin (0.5 * c.fovY) / viewport.aspect *
        (c.viewPosition point).x /
        c.viewDepth point := by
  change ((c.projector viewport).toClip.mulVec (point.extend 1)).x /
    ((c.projector viewport).toClip.mulVec (point.extend 1)).w = _
  rw [toClip_w, toClip_mulVec]
  exact congrArg (· / _) (Mat4.perspective_mulVec_x _)

theorem project_y (point : Vec3 K) :
    ((c.projector viewport).project point).y =
      Elementary.cos (0.5 * c.fovY) / Elementary.sin (0.5 * c.fovY) * (c.viewPosition point).y /
        c.viewDepth point := by
  change ((c.projector viewport).toClip.mulVec (point.extend 1)).y /
    ((c.projector viewport).toClip.mulVec (point.extend 1)).w = _
  rw [toClip_w, toClip_mulVec]
  exact congrArg (· / _) (Mat4.perspective_mulVec_y _)

/-! ## Depths -/

theorem depth_eq (deep : c.near ≠ c.far) {point : Vec3 K} (ahead : c.viewDepth point ≠ 0) :
    (c.projector viewport).depth point =
      c.far * (c.viewDepth point - c.near) / (c.viewDepth point * (c.far - c.near)) := by
  have range : c.near - c.far ≠ 0 := sub_ne_zero.2 deep
  have range' : c.far - c.near ≠ 0 := sub_ne_zero.2 deep.symm
  have quotient : (c.projector viewport).depth point =
      c.far / (c.near - c.far) * (-c.viewDepth point + c.near * 1) / c.viewDepth point := by
    change ((c.projector viewport).toClip.mulVec (point.extend 1)).z /
      ((c.projector viewport).toClip.mulVec (point.extend 1)).w = _
    rw [toClip_w, toClip_mulVec]
    congr 1
    refine (Mat4.perspective_mulVec_z _).trans ?_
    rw [viewDepth, neg_neg]
    rfl
  rw [quotient, div_eq_div_iff ahead (mul_ne_zero ahead range')]
  field_simp
  ring

theorem linearDepth_eq [IsStrictOrderedRing K] (near : c.near ≠ 0) (far : c.far ≠ 0)
    (deep : c.near ≠ c.far) {point : Vec3 K} (ahead : c.viewDepth point ≠ 0) :
    (c.projector viewport).linearDepth point = c.viewDepth point / c.far := by
  have range : c.far - c.near ≠ 0 := sub_ne_zero.2 deep.symm
  have two : (2.0 : K) = 2 := by norm_num
  change 2.0 * c.near * c.far /
    (c.far + c.near - ((c.projector viewport).depth point * 2.0 - 1) * (c.far - c.near)) / c.far = _
  rw [depth_eq deep ahead, two]
  have divisor : c.far + c.near -
      (c.far * (c.viewDepth point - c.near) / (c.viewDepth point * (c.far - c.near)) * 2 - 1) *
        (c.far - c.near) =
        2 * c.near * c.far / c.viewDepth point := by
    field_simp
    ring
  rw [divisor, div_div_cancel₀ (mul_ne_zero (mul_ne_zero two_ne_zero near) far)]

/-- Along the view ray of a position on the screen, the depth grows evenly from the near to the far
distance. -/
theorem viewDepth_through (view : c.view.IsInvertible)
    (projection : (c.projection viewport.aspect).IsInvertible) (ndc : Vec2 K) (t : K) :
    let ray := Grid.Ray.through (c.projector viewport) ndc
    c.viewDepth (ray.near + (ray.far - ray.near) * t) = c.near + t * (c.far - c.near) := by
  intro ray
  have line := Projector.toClip_line (p := c.projector viewport) view projection
    (ofClip_near_ne_zero view projection ndc) (ofClip_far_ne_zero view projection ndc) t
  have last := congrArg Vec4.w line
  rw [toClip_w, ofClip_near view projection, ofClip_far view projection] at last
  refine last.trans ?_
  change 1 * ((1 - t) / (1 / c.near)) + 1 * (t / (1 / c.far)) = _
  rw [div_div_eq_mul_div, div_div_eq_mul_div]
  ring

/-! ## The camera on the hillside -/

theorem hillside_viewPosition (point : Vec3 ℝ) :
    hillside.viewPosition point =
      ⟨point.x, (point.y - 3) * (4 / 5) - (point.z - 4) * (3 / 5),
       (point.y - 3) * (3 / 5) + (point.z - 4) * (4 / 5)⟩ := by
  rw [viewPosition_eq, viewDirection, hillside_side, hillside_forward]
  change (⟨(point.x - 0) * 1 + (point.y - 3) * 0 + (point.z - 4) * 0,
    (point.x - 0) * (0 * (-4 / 5) - -3 / 5 * 0) + (point.y - 3) * (0 * 0 - -4 / 5 * 1) +
      (point.z - 4) * (1 * (-3 / 5) - 0 * 0),
    -((point.x - 0) * 0 + (point.y - 3) * (-3 / 5) + (point.z - 4) * (-4 / 5))⟩ : Vec3 ℝ) = _
  ext <;> ring

/-- The point at a distance along the direction of the camera is what the center of the screen is
unprojected to. -/
theorem hillside_unproject (viewport : Viewport ℝ) {point : Vec3 ℝ} {d : ℝ} (hd : d ≠ 0)
    (axis : hillside.viewPosition point = ⟨0, 0, -d⟩) :
    (hillside.projector viewport).unproject (Vec2.extend 0 (10 * (d - 1) / (d * (10 - 1)))) =
      point := by
  have deep : hillside.near ≠ hillside.far := (by norm_num : (1 : ℝ) ≠ 10)
  have ahead : hillside.viewDepth point = d := by rw [viewDepth, axis, neg_neg]
  have seen :
      (hillside.projector viewport).project point =
        Vec2.extend 0 (10 * (d - 1) / (d * (10 - 1))) := by
    ext
    · rw [project_x, axis, mul_zero, zero_div]
      rfl
    · rw [project_y, axis, mul_zero, zero_div]
      rfl
    · refine (depth_eq deep (ahead ▸ hd)).trans ?_
      rw [ahead]
      rfl
  have projection : (hillside.projector viewport).projection.IsInvertible :=
    hillside_projection_isInvertible viewport.aspect_pos.ne'
  have last : ((hillside.projector viewport).toClip.mulVec (point.extend 1)).w ≠ 0 := by
    rw [toClip_w, ahead]
    exact hd
  rw [← seen]
  exact Projector.unproject_project
    (p := hillside.projector viewport) hillside_view_isInvertible projection last

/-- The view ray through the center of the screen. -/
theorem hillside_through (viewport : Viewport ℝ) :
    Grid.Ray.through (hillside.projector viewport) 0 = ⟨⟨0, 12 / 5, 16 / 5⟩, ⟨0, -3, -4⟩⟩ := by
  have near : (hillside.projector viewport).unproject (Vec2.extend 0 0) = ⟨0, 12 / 5, 16 / 5⟩ := by
    have axis : hillside.viewPosition ⟨0, 12 / 5, 16 / 5⟩ = ⟨0, 0, -1⟩ := by
      rw [hillside_viewPosition]
      norm_num
    have unprojected := hillside_unproject viewport one_ne_zero axis
    norm_num at unprojected
    exact unprojected
  have far : (hillside.projector viewport).unproject (Vec2.extend 0 1) = ⟨0, -3, -4⟩ := by
    have axis : hillside.viewPosition ⟨0, -3, -4⟩ = ⟨0, 0, -10⟩ := by
      rw [hillside_viewPosition]
      norm_num
    have unprojected := hillside_unproject viewport (by norm_num) axis
    norm_num at unprojected
    exact unprojected
  exact congrArg₂ Grid.Ray.mk near far

end Camera

end GroundPlane
