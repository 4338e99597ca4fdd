import Mathlib
import GroundPlane.Grid.Fragment
import GroundPlane.Proofs.Exact
import GroundPlane.Proofs.Matrix

/-!
# The ground point of a pixel

Without rounding, the point where the view ray of a pixel meets the ground is seen at that pixel, at
the depth that the grid writes there (`ground_seen_through_pixel`). A point of the ray is a
combination of two clip positions over the same pixel, so that all of the ray stays on it, whatever
the view and the projection are.
-/

namespace GroundPlane

variable {K : Type} [Field K]

/-- A point of the line through two points, each divided by its own `w`, is a combination of the two
before the division. -/
theorem Vec4.dehomogenize_line {a b : Vec4 K} (ha : a.w ≠ 0) (hb : b.w ≠ 0) (t : K) :
    (a.dehomogenize + (b.dehomogenize - a.dehomogenize) * t).extend 1 =
      a * ((1 - t) / a.w) + b * (t / b.w) := by
  rw [scale_def, scale_def, add_def]
  change (⟨a.x / a.w + (b.x / b.w - a.x / a.w) * t, a.y / a.w + (b.y / b.w - a.y / a.w) * t,
    a.z / a.w + (b.z / b.w - a.z / a.w) * t, 1⟩ : Vec4 K) = _
  rw [mk.injEq, mul_div_cancel₀ _ ha, mul_div_cancel₀ _ hb]
  refine ⟨?_, ?_, ?_, ?_⟩ <;> ring

/-- Combinations of clip positions over one pixel stay on it. -/
theorem Vec4.dehomogenize_combination (ndc : Vec2 K) (a b s t : K)
    (clip : ((ndc.extend a).extend 1 * s + (ndc.extend b).extend 1 * t).w ≠ 0) :
    ((ndc.extend a).extend 1 * s + (ndc.extend b).extend 1 * t).dehomogenize.x = ndc.x ∧
      ((ndc.extend a).extend 1 * s + (ndc.extend b).extend 1 * t).dehomogenize.y = ndc.y := by
  change 1 * s + 1 * t ≠ 0 at clip
  change (ndc.x * s + ndc.x * t) / (1 * s + 1 * t) = ndc.x ∧
    (ndc.y * s + ndc.y * t) / (1 * s + 1 * t) = ndc.y
  rw [div_eq_iff clip, div_eq_iff clip]
  constructor <;> ring

variable [LinearOrder K] [FloorRing K] [SquareRoot K]

namespace Projector

variable {p : Projector K}

theorem toClip_ofClip (view : p.view.IsInvertible) (projection : p.projection.IsInvertible)
    (v : Vec4 K) : p.toClip.mulVec (p.ofClip.mulVec v) = v := by
  unfold toClip ofClip
  rw [Mat4.mul_mulVec, Mat4.mul_mulVec, ← Mat4.mul_mulVec p.view, Mat4.mul_inverse view.det_ne_zero,
    Mat4.identity_mulVec, ← Mat4.mul_mulVec, Mat4.mul_inverse projection.det_ne_zero,
    Mat4.identity_mulVec]

/-- The clip position of a point of the line between two unprojected positions. -/
theorem toClip_line (view : p.view.IsInvertible) (projection : p.projection.IsInvertible)
    {a b : Vec3 K} (ha : (p.ofClip.mulVec (a.extend 1)).w ≠ 0)
    (hb : (p.ofClip.mulVec (b.extend 1)).w ≠ 0) (t : K) :
    p.toClip.mulVec ((p.unproject a + (p.unproject b - p.unproject a) * t).extend 1) =
      a.extend 1 * ((1 - t) / (p.ofClip.mulVec (a.extend 1)).w) +
        b.extend 1 * (t / (p.ofClip.mulVec (b.extend 1)).w) := by
  unfold unproject
  rw [Vec4.dehomogenize_line ha hb, Mat4.mulVec_add, Mat4.mulVec_scale, Mat4.mulVec_scale,
    toClip_ofClip view projection, toClip_ofClip view projection]

end Projector

namespace Grid

theorem Ray.ground_height {r : Ray K} (slanted : r.near.y ≠ r.far.y) : r.ground.position.y = 0 := by
  have climb : r.far.y - r.near.y ≠ 0 := sub_ne_zero.2 slanted.symm
  change r.near.y + (r.far.y - r.near.y) * (-r.near.y / (r.far.y - r.near.y)) = 0
  rw [mul_div_cancel₀ _ climb, add_neg_cancel]

/-- Every point of the view ray through a position is seen there. -/
theorem Ray.through_project {p : Projector K} {ndc : Vec2 K} (view : p.view.IsInvertible)
    (projection : p.projection.IsInvertible)
    (near : (p.ofClip.mulVec ((ndc.extend 0).extend 1)).w ≠ 0)
    (far : (p.ofClip.mulVec ((ndc.extend 1).extend 1)).w ≠ 0) {t : K} {point : Vec3 K}
    (on : point = (through p ndc).near + ((through p ndc).far - (through p ndc).near) * t)
    (clip : (p.toClip.mulVec (point.extend 1)).w ≠ 0) :
    (p.project point).x = ndc.x ∧ (p.project point).y = ndc.y := by
  have line := Projector.toClip_line view projection near far t
  rw [show p.unproject (ndc.extend 0) +
      (p.unproject (ndc.extend 1) - p.unproject (ndc.extend 0)) * t = point from on.symm] at line
  unfold Projector.project
  rw [line] at clip ⊢
  exact Vec4.dehomogenize_combination ndc 0 1 _ _ clip

/-- Let the view and the projection be invertible, and let the ends of the view ray through a
position in device coordinates exist and differ in height. Then the ray meets the ground, the point
where it does is seen at that position, and it has the depth of the fragment. -/
theorem ground_seen_through_pixel (p : Projector K) (ndc : Vec2 K) (view : p.view.IsInvertible)
    (projection : p.projection.IsInvertible)
    (near : (p.ofClip.mulVec ((ndc.extend 0).extend 1)).w ≠ 0)
    (far : (p.ofClip.mulVec ((ndc.extend 1).extend 1)).w ≠ 0)
    (slanted : (Corner.ofNdc p ndc).ray.near.y ≠ (Corner.ofNdc p ndc).ray.far.y) :
    let hit := (Corner.ofNdc p ndc).ray.ground
    hit.position.y = 0 ∧
      ((p.toClip.mulVec (hit.position.extend 1)).w ≠ 0 →
        (p.project hit.position).x = ndc.x ∧ (p.project hit.position).y = ndc.y ∧
          ∀ (rays : Patch (Ray K)) (style : Style K), rays.here = (Corner.ofNdc p ndc).ray →
            (p.project hit.position).z = (fragment rays p style).depth) := by
  intro hit
  refine ⟨Ray.ground_height slanted, fun clip => ?_⟩
  obtain ⟨x, y⟩ := Ray.through_project view projection near far rfl clip
  refine ⟨x, y, fun rays style here => ?_⟩
  change _ = p.depth rays.here.ground.position
  rw [here]
  rfl

/-- A camera two units above the ground, turned to the horizon. -/
def overlook : Projector ℚ where
  view := .shift ⟨0, -2, 0⟩
  projection := ⟨⟨1, 0, 0, 0⟩, ⟨0, 2, 0, 0⟩, ⟨0, 0, -10 / 9, -1⟩, ⟨0, 0, -10 / 9, 0⟩⟩
  near := 1
  far := 10

theorem ground_seen_through_pixel_overlook :
    overlook.view.IsInvertible ∧ overlook.projection.IsInvertible ∧
      let hit := (Corner.ofNdc overlook ⟨1 / 2, -1 / 2⟩).ray.ground
      hit.position.y = 0 ∧
        (overlook.project hit.position).x = 1 / 2 ∧ (overlook.project hit.position).y = -1 / 2 ∧
        ∀ (rays : Patch (Ray ℚ)) (style : Style ℚ),
        rays.here = (Corner.ofNdc overlook ⟨1 / 2, -1 / 2⟩).ray →
          (overlook.project hit.position).z = (fragment rays overlook style).depth := by
  have view : overlook.view.IsInvertible := Mat4.isInvertible_iff.2 (by decide +kernel)
  have projection : overlook.projection.IsInvertible := Mat4.isInvertible_iff.2 (by decide +kernel)
  obtain ⟨height, seen⟩ := ground_seen_through_pixel overlook ⟨1 / 2, -1 / 2⟩ view projection
    (by decide +kernel) (by decide +kernel) (by decide +kernel)
  exact ⟨view, projection, height, seen (by decide +kernel)⟩

end Grid

end GroundPlane
