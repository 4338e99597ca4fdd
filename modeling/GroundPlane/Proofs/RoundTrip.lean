import Mathlib
import GroundPlane.Proofs.CameraMatrix
import GroundPlane.Proofs.GroundPoint

/-!
# Projection and unprojection undo each other

Without rounding, a position in device coordinates comes back from the world and a world point comes
back from the screen, wherever the division by the last coordinate is one
(`project_unproject_inverse`). For the projector of a camera it always is, so that the view ray of a
pixel starts at depth 0 and ends at depth 1.
-/

namespace GroundPlane

variable {K : Type} [Field K]

/-- The point that a matrix makes of `a` leads back to `a`, up to scale. -/
theorem Mat4.mulVec_dehomogenize {m n : Mat4 K} (undoes : ∀ v, m.mulVec (n.mulVec v) = v)
    {a : Vec3 K} (ha : (n.mulVec (a.extend 1)).w ≠ 0) :
    m.mulVec ((n.mulVec (a.extend 1)).dehomogenize.extend 1) =
      a.extend 1 * (1 / (n.mulVec (a.extend 1)).w) := by
  rw [Vec4.dehomogenize_extend ha, mulVec_scale, undoes]

variable [LinearOrder K] [FloorRing K] [SquareRoot K]

namespace Projector

section RoundTrip

variable {p : Projector K} (view : p.view.IsInvertible) (projection : p.projection.IsInvertible)
include view projection

theorem ofClip_toClip (v : Vec4 K) : p.ofClip.mulVec (p.toClip.mulVec v) = v := by
  unfold toClip ofClip
  rw [Mat4.mul_mulVec, Mat4.mul_mulVec, Mat4.inverse_mulVec_mulVec projection,
    Mat4.inverse_mulVec_mulVec view]

/-- The clip position of an unprojected position is the position itself, up to scale. -/
theorem toClip_unproject {ndc : Vec3 K} (seen : (p.ofClip.mulVec (ndc.extend 1)).w ≠ 0) :
    p.toClip.mulVec ((p.unproject ndc).extend 1) =
      ndc.extend 1 * (1 / (p.ofClip.mulVec (ndc.extend 1)).w) :=
  Mat4.mulVec_dehomogenize (toClip_ofClip view projection) seen

theorem toClip_unproject_ne_zero {ndc : Vec3 K} (seen : (p.ofClip.mulVec (ndc.extend 1)).w ≠ 0) :
    (p.toClip.mulVec ((p.unproject ndc).extend 1)).w ≠ 0 := by
  rw [toClip_unproject view projection seen]
  change 1 * (1 / (p.ofClip.mulVec (ndc.extend 1)).w) ≠ 0
  rw [one_mul]
  exact one_div_ne_zero seen

theorem project_unproject {ndc : Vec3 K} (seen : (p.ofClip.mulVec (ndc.extend 1)).w ≠ 0) :
    p.project (p.unproject ndc) = ndc := by
  rw [project, toClip_unproject view projection seen]
  exact Vec4.extend_scale_dehomogenize ndc (one_div_ne_zero seen)

theorem unproject_project {world : Vec3 K} (seen : (p.toClip.mulVec (world.extend 1)).w ≠ 0) :
    p.unproject (p.project world) = world := by
  unfold unproject project
  rw [Mat4.mulVec_dehomogenize (ofClip_toClip view projection) seen]
  exact Vec4.extend_scale_dehomogenize world (one_div_ne_zero seen)

end RoundTrip

/-- If the view and the projection have inverses, then every position that is unprojected to a point
is where this point is seen, and every point that is seen somewhere is the one that its position is
unprojected to. The view rays of a camera start at depth 0 and end at depth 1. -/
theorem project_unproject_inverse (p : Projector K) (view : p.view.IsInvertible)
    (projection : p.projection.IsInvertible) :
    (∀ ndc, (p.ofClip.mulVec (ndc.extend 1)).w ≠ 0 →
      p.project (p.unproject ndc) = ndc ∧ (p.toClip.mulVec ((p.unproject ndc).extend 1)).w ≠ 0) ∧
    (∀ world, (p.toClip.mulVec (world.extend 1)).w ≠ 0 → p.unproject (p.project world) = world) ∧
    ∀ [Elementary K] (c : Camera K) (viewport : Viewport K), p = c.projector viewport → ∀ ndc :
    Vec2 K,
      p.depth (Grid.Corner.ofNdc p ndc).ray.near = 0 ∧
      p.depth (Grid.Corner.ofNdc p ndc).ray.far = 1 := by
  refine ⟨fun ndc seen => ?_, fun world seen => unproject_project view projection seen, ?_⟩
  · exact ⟨project_unproject view projection seen, toClip_unproject_ne_zero view projection seen⟩
  · rintro _ c viewport rfl ndc
    have near := project_unproject view projection (Camera.ofClip_near_ne_zero view projection ndc)
    have far := project_unproject view projection (Camera.ofClip_far_ne_zero view projection ndc)
    exact ⟨congrArg Vec3.z near, congrArg Vec3.z far⟩

/-- The center of the screen halfway through the depth range, the origin, and a view ray, for a
camera over a hill. -/
theorem project_unproject_inverse_hillside :
    let p := Camera.hillside.projector ⟨2, 1⟩
    p.view.IsInvertible ∧ p.projection.IsInvertible ∧
      (p.project (p.unproject ⟨0, 0, 1 / 2⟩) = ⟨0, 0, 1 / 2⟩ ∧
        (p.toClip.mulVec ((p.unproject ⟨0, 0, 1 / 2⟩).extend 1)).w ≠ 0) ∧
      p.unproject (p.project 0) = 0 ∧
      p.depth (Grid.Corner.ofNdc p ⟨1, -1⟩).ray.near = 0 ∧
      p.depth (Grid.Corner.ofNdc p ⟨1, -1⟩).ray.far = 1 := by
  intro p
  have view : p.view.IsInvertible := Camera.hillside_view_isInvertible
  have projection : p.projection.IsInvertible :=
    Camera.hillside_projection_isInvertible (Viewport.aspect_pos _).ne'
  obtain ⟨back, forth, rays⟩ := project_unproject_inverse p view projection
  refine ⟨view, projection, back _ ?_, forth _ ?_, rays Camera.hillside ⟨2, 1⟩ rfl _⟩
  · rw [Camera.ofClip_w view projection]
    change ((1 / 2 : ℝ) + 10 / (1 - 10) * 1) / (10 / (1 - 10) * 1) ≠ 0
    norm_num
  · rw [toClip, Mat4.mul_mulVec]
    refine Eq.trans_ne (Mat4.perspective_mulVec_w _) ?_
    have ahead : (p.view.mulVec (Vec3.extend 0 1)).z = -5 := by
      change -Camera.hillside.forward.x * 0 + -Camera.hillside.forward.y * 0 +
        -Camera.hillside.forward.z * 0 +
        Camera.hillside.eye.dot Camera.hillside.forward * 1 = -5
      rw [Camera.hillside_forward]
      change -0 * 0 + -(-3 / 5) * 0 + -(-4 / 5) * 0 + (0 * 0 + 3 * (-3 / 5) + 4 * (-4 / 5)) * 1 =
        (-5 : ℝ)
      norm_num
    rw [ahead]
    norm_num

end Projector

end GroundPlane
