import Mathlib
import GroundPlane.Proofs.ViewSpace

/-!
# The grid is drawn inside the depth range

Without rounding, whatever the grid draws lies strictly between the clip planes
(`drawn_within_depth_range`). The ground point of a pixel may lie behind the camera, before the near
plane or beyond the far plane. The first two are not ahead of the near plane, where the fragment is
transparent, and the fade leaves nothing from a share of the far distance on
(`fade_follows_view_depth`).
-/

namespace GroundPlane.Grid

variable {K : Type} [Field K] [LinearOrder K] [FloorRing K] [SquareRoot K]

/-! ## Alpha -/

theorem fragment_alpha_ahead {rays : Patch (Ray K)} (ahead : 0 < rays.here.ground.t)
    (p : Projector K) (style : Style K) :
    (fragment rays p style).color.w =
      (patterns ((rays.map Ray.ground).map Hit.position) style).w *
        fade (p.linearDepth rays.here.ground.position) style.fadeOffset :=
  congrArg Vec4.w (if_pos (decide_eq_true ahead))

variable [IsStrictOrderedRing K]

theorem lineDistances_nonneg (coords : Patch (Vec2 K)) :
    0 ≤ (lineDistances coords.here coords.width).x ∧
    0 ≤ (lineDistances coords.here coords.width).y :=
  ⟨div_nonneg (abs_nonneg _) (add_nonneg (abs_nonneg _) (abs_nonneg _)),
    div_nonneg (abs_nonneg _) (add_nonneg (abs_nonneg _) (abs_nonneg _))⟩

/-- The alpha of a pattern is a share. -/
theorem pattern_alpha (positions : Patch (Vec3 K)) (scale : K) (style : Style K) :
    0 ≤ (pattern positions scale style).w ∧ (pattern positions scale style).w ≤ 1 := by
  obtain ⟨x, y⟩ := lineDistances_nonneg (positions.map fun p => (⟨p.x, p.z⟩ : Vec2 K) * scale)
  have line := le_min (le_min x y) zero_le_one
  exact ⟨sub_nonneg.2 (min_le_right _ _), sub_le_self _ line⟩

/-- Lines cross at the origin at every scale. -/
theorem pattern_alpha_origin {positions : Patch (Vec3 K)} (here : positions.here = 0) (scale : K)
    (style : Style K) :
    (pattern positions scale style).w = 1 := by
  have on_line : lineDistance (0 : K) = 0 := by
    change |((0 : K) - 0.5 - (⌊(0 : K) - 0.5⌋ : K)) - 0.5| = 0
    norm_num
  have x : lineDistance (positions.here.x * scale) = 0 := by
    rw [here]
    exact (congrArg lineDistance (zero_mul scale)).trans on_line
  have z : lineDistance (positions.here.z * scale) = 0 := by
    rw [here]
    exact (congrArg lineDistance (zero_mul scale)).trans on_line
  change 1 -
    min (min (lineDistance (positions.here.x * scale) / _)
      (lineDistance (positions.here.z * scale) / _)) 1 = 1
  rw [x, z, zero_div, zero_div, min_self, min_eq_left zero_le_one, sub_zero]

theorem patterns_alpha (positions : Patch (Vec3 K)) (style : Style K) :
    0 ≤ (patterns positions style).w ∧ (patterns positions style).w ≤ 2 := by
  have fine := pattern_alpha positions style.fine style
  have coarse := pattern_alpha positions style.coarse style
  change 0 ≤ 0 + (pattern positions style.fine style).w + (pattern positions style.coarse style).w ∧
    0 + (pattern positions style.fine style).w + (pattern positions style.coarse style).w ≤ 2
  constructor <;> linarith

theorem fade_le {linearDepth offset : K} (depth : 0 ≤ linearDepth) (share : 0 ≤ offset) :
    fade linearDepth offset ≤ offset :=
  max_le (sub_le_self _ depth) share

theorem fade_eq_zero_iff {linearDepth offset : K} :
    fade linearDepth offset = 0 ↔ offset ≤ linearDepth :=
  max_eq_right_iff.trans sub_nonpos

theorem lt_of_fade_ne_zero {linearDepth offset : K} (left : fade linearDepth offset ≠ 0) :
    linearDepth < offset :=
  not_le.1 fun beyond => left (fade_eq_zero_iff.2 beyond)

theorem antitone_fade (offset : K) : Antitone fun linearDepth => fade linearDepth offset :=
  fun _ _ farther => max_le_max_right 0 (sub_le_sub_left farther offset)

/-- The alpha of a fragment whose ground point, if it is ahead, has a linear depth that is not
negative. -/
theorem fragment_alpha (rays : Patch (Ray K)) (p : Projector K) {style : Style K}
    (share : 0 ≤ style.fadeOffset)
    (depth : 0 < rays.here.ground.t → 0 ≤ p.linearDepth rays.here.ground.position) :
    0 ≤ (fragment rays p style).color.w ∧ (fragment rays p style).color.w ≤ 2 * style.fadeOffset ∧
      ((fragment rays p style).color.w ≠ 0 →
        0 < rays.here.ground.t ∧ p.linearDepth rays.here.ground.position < style.fadeOffset) := by
  by_cases ahead : 0 < rays.here.ground.t
  · obtain ⟨nonneg, le_two⟩ := patterns_alpha ((rays.map Ray.ground).map Hit.position) style
    have left : 0 ≤ fade (p.linearDepth rays.here.ground.position) style.fadeOffset :=
      le_max_right _ _
    rw [fragment_alpha_ahead ahead]
    refine ⟨mul_nonneg nonneg left, ?_, fun drawn => ⟨ahead, ?_⟩⟩
    · exact mul_le_mul le_two (fade_le (depth ahead) share) left zero_le_two
    · exact lt_of_fade_ne_zero (right_ne_zero_of_mul drawn)
  · have alpha : (fragment rays p style).color.w = 0 :=
      congrArg Vec4.w (if_neg fun visible => ahead (of_decide_eq_true visible))
    rw [alpha]
    exact ⟨le_rfl, mul_nonneg zero_le_two share, fun drawn => absurd rfl drawn⟩

/-! ## Depth -/

/-- The depth of the depth buffer, between the clip planes. -/
theorem hyperbola_mem {near far v : K} (hn : 0 < near) (ahead : near < v) (before : v < far) :
    0 < far * (v - near) / (v * (far - near)) ∧ far * (v - near) / (v * (far - near)) < 1 := by
  have hv : 0 < v := hn.trans ahead
  have divisor : 0 < v * (far - near) := mul_pos hv (sub_pos.2 (ahead.trans before))
  refine ⟨div_pos (mul_pos (hv.trans before) (sub_pos.2 ahead)) divisor, ?_⟩
  rw [div_lt_one divisor]
  have shorter : near * v < near * far := mul_lt_mul_of_pos_left before hn
  linarith

/-- Let the directions of a camera form a basis, let its frustum have volume, and let the view ray
of a pixel meet the ground at the share `t` of the way. Then the ground there is
`near + t (far - near)` ahead of the camera, the alpha of the pixel is at most twice the fade's
offset, and unless it is zero, the ground lies behind the near plane, before the depth at which the
grid has faded out, and the depth of the pixel is the hyperbola's, strictly between 0 and 1. -/
theorem drawn_within_depth_range [Elementary K] (c : Camera K) (viewport : Viewport K)
    (style : Style K) (px py : K) (forward : c.forward ≠ 0) (side : c.side ≠ 0)
    (sin : Elementary.sin (0.5 * c.fovY) ≠ 0)
    (cos : Elementary.cos (0.5 * c.fovY) ≠ 0) (near : 0 < c.near) (deep : c.near < c.far)
    (share : 0 ≤ style.fadeOffset) (whole : style.fadeOffset ≤ 1)
    (slanted : (Ray.through (c.projector viewport) (viewport.toNdc px py)).near.y ≠
      (Ray.through (c.projector viewport) (viewport.toNdc px py)).far.y) :
    let hit := (Ray.through (c.projector viewport) (viewport.toNdc px py)).ground
    let v := c.near + hit.t * (c.far - c.near)
    let drawn := pixel (c.projector viewport) viewport style px py
    hit.position.y = 0 ∧ c.viewDepth hit.position = v ∧
      0 ≤ drawn.color.w ∧ drawn.color.w ≤ 2 * style.fadeOffset ∧
      (drawn.color.w ≠ 0 →
        0 < hit.t ∧ c.near < v ∧ v < style.fadeOffset * c.far ∧
          drawn.depth = c.far * (v - c.near) / (v * (c.far - c.near)) ∧ 0 < drawn.depth ∧
          drawn.depth < 1) := by
  intro hit v drawn
  have far : 0 < c.far := near.trans deep
  have view : c.view.IsInvertible := Camera.view_isInvertible forward side
  have projection : (c.projection viewport.aspect).IsInvertible :=
    Camera.projection_isInvertible sin cos viewport.aspect_pos.ne' near.ne' far.ne' deep.ne
  have depth : c.viewDepth hit.position = v := Camera.viewDepth_through view projection _ hit.t
  have ahead (visible : 0 < hit.t) : c.near < v :=
    lt_add_of_pos_right _ (mul_pos visible (sub_pos.2 deep))
  have linear (visible : 0 < hit.t) :
      (c.projector viewport).linearDepth hit.position = v / c.far := by
    rw [← depth]
    exact Camera.linearDepth_eq near.ne' far.ne' deep.ne (depth ▸ (near.trans (ahead visible)).ne')
  -- ground that is not ahead may have any linear depth, but there the fragment is transparent
  obtain ⟨nonneg, bound, shows⟩ := fragment_alpha
    (.sample px py fun x y => .through (c.projector viewport) (viewport.toNdc x y))
    (c.projector viewport) share
    fun visible => (linear visible).symm ▸ (div_pos (near.trans (ahead visible)) far).le
  refine ⟨Ray.ground_height slanted, depth, nonneg, bound, fun drawn => ?_⟩
  obtain ⟨visible, unfaded⟩ := shows drawn
  have before : v < style.fadeOffset * c.far := (div_lt_iff₀ far).1 (linear visible ▸ unfaded)
  have inside :=
    hyperbola_mem near (ahead visible) (before.trans_le (mul_le_of_le_one_left far.le whole))
  have written : (pixel (c.projector viewport) viewport style px py).depth =
      c.far * (v - c.near) / (v * (c.far - c.near)) := by
    rw [← depth]
    exact Camera.depth_eq deep.ne (depth ▸ (near.trans (ahead visible)).ne')
  exact ⟨visible, ahead visible, before, written, written ▸ inside.1, written ▸ inside.2⟩

/-- The center of the screen of a camera on a hillside shows the origin, where lines cross, before
they have faded out. -/
theorem drawn_within_depth_range_hillside :
    let c := Camera.hillside
    let viewport : Viewport ℝ := ⟨2, 1⟩
    let style : Style ℝ :=
      { fine := 10, coarse := 1, lineColor := ⟨1, 1, 1⟩, axisBand := 1 / 10, fadeOffset := 3 / 5 }
    let ray := Ray.through (c.projector viewport) (viewport.toNdc 1 (1 / 2))
    let v := c.near + ray.ground.t * (c.far - c.near)
    let drawn := pixel (c.projector viewport) viewport style 1 (1 / 2)
    ray.near.y ≠ ray.far.y ∧ v = 5 ∧ c.viewDepth ray.ground.position = v ∧
      drawn.color.w ≠ 0 ∧ v < style.fadeOffset * c.far ∧ 0 < drawn.depth ∧ drawn.depth < 1 := by
  intro c viewport style ray v drawn
  have center : viewport.toNdc 1 (1 / 2) = 0 := by
    change (⟨1 / 2 * 2.0 - 1, 1 - 1 / 2 / 1 * 2.0⟩ : Vec2 ℝ) = ⟨0, 0⟩
    norm_num
  have ends : ray = ⟨⟨0, 12 / 5, 16 / 5⟩, ⟨0, -3, -4⟩⟩ := by
    rw [← Camera.hillside_through viewport, ← center]
  have slanted : ray.near.y ≠ ray.far.y := by
    rw [ends]
    norm_num
  have t : ray.ground.t = 4 / 9 := by
    rw [ends]
    change -(12 / 5) / (-3 - 12 / 5) = (4 / 9 : ℝ)
    norm_num
  have origin : ray.ground.position = 0 := by
    change ray.near + (ray.far - ray.near) * ray.ground.t = 0
    rw [t, ends]
    change (⟨0 + (0 - 0) * (4 / 9), 12 / 5 + (-3 - 12 / 5) * (4 / 9),
      16 / 5 + (-4 - 16 / 5) * (4 / 9)⟩ : Vec3 ℝ) = ⟨0, 0, 0⟩
    norm_num
  have distance : v = 5 := by
    change 1 + ray.ground.t * (10 - 1) = (5 : ℝ)
    rw [t]
    norm_num
  obtain ⟨-, depth, -, -, shows⟩ :=
    drawn_within_depth_range c viewport style 1 (1 / 2) Camera.hillside_forward_ne_zero
    Camera.hillside_side_ne_zero Camera.hillside_sin_ne_zero Camera.hillside_cos_ne_zero one_pos
    (by norm_num : (1 : ℝ) < 10) (by norm_num [style]) (by norm_num [style]) slanted
  have alpha : drawn.color.w ≠ 0 := by
    have visible : 0 < ray.ground.t := by
      rw [t]
      norm_num
    have linear : (c.projector viewport).linearDepth ray.ground.position = 5 / 10 := by
      refine (Camera.linearDepth_eq one_ne_zero (by norm_num : (10 : ℝ) ≠ 0)
        (by norm_num : (1 : ℝ) ≠ 10) ?_).trans ?_
      · rw [depth.trans distance]
        norm_num
      · rw [depth.trans distance]
        rfl
    change (fragment
      (.sample 1 (1 / 2) fun x y => .through (c.projector viewport) (viewport.toNdc x y))
      (c.projector viewport) style).color.w ≠ 0
    rw [fragment_alpha_ahead visible]
    change (0 + (pattern _ 10 style).w + (pattern _ 1 style).w) *
      max (3 / 5 - (c.projector viewport).linearDepth ray.ground.position) 0 ≠ 0
    rw [pattern_alpha_origin origin, pattern_alpha_origin origin, linear]
    norm_num
  obtain ⟨-, -, before, -, inside⟩ := shows alpha
  exact ⟨slanted, distance, depth, alpha, before, inside⟩

/-! ## Fading -/

/-- The linear depth of a point is its share of the far distance. So if the frustum has volume, less
is left of what lies farther ahead, and nothing exactly from the offset's share of the far distance
on. -/
theorem fade_follows_view_depth [Elementary K] (c : Camera K) (viewport : Viewport K)
    (near : c.near ≠ 0) (far : c.far ≠ 0) (deep : c.near ≠ c.far) :
    (∀ point, c.viewDepth point ≠ 0 →
      (c.projector viewport).linearDepth point = c.viewDepth point / c.far) ∧
    (0 < c.near → c.near < c.far → ∀ offset,
      (∀ point other, 0 < c.viewDepth point → c.viewDepth point ≤ c.viewDepth other →
        fade ((c.projector viewport).linearDepth other) offset ≤
          fade ((c.projector viewport).linearDepth point) offset) ∧
      ∀ point, 0 < c.viewDepth point →
        (fade ((c.projector viewport).linearDepth point) offset = 0 ↔
          offset * c.far ≤ c.viewDepth point)) := by
  have linear {point : Vec3 K} (ahead : c.viewDepth point ≠ 0) :
      (c.projector viewport).linearDepth point = c.viewDepth point / c.far :=
    Camera.linearDepth_eq near far deep ahead
  refine ⟨fun point => linear, fun positive deeper offset => ?_⟩
  have beyond : 0 < c.far := positive.trans deeper
  refine ⟨fun point other ahead farther => ?_, fun point ahead => ?_⟩
  · rw [linear ahead.ne', linear (ahead.trans_le farther).ne']
    exact antitone_fade offset (div_le_div_of_nonneg_right farther beyond.le)
  · rw [linear ahead.ne', fade_eq_zero_iff, le_div_iff₀ beyond]

/-- With an offset of a half, nothing is left at the origin, half of the far distance ahead of a
camera on a hillside, but something is left before it. -/
theorem fade_follows_view_depth_hillside :
    let p := Camera.hillside.projector ⟨2, 1⟩
    p.linearDepth 0 = 1 / 2 ∧ fade (p.linearDepth 0) (1 / 2) = 0 ∧
      fade (p.linearDepth 0) (1 / 2) ≤ fade (p.linearDepth ⟨0, 6 / 5, 8 / 5⟩) (1 / 2) ∧
      fade (p.linearDepth ⟨0, 6 / 5, 8 / 5⟩) (1 / 2) ≠ 0 := by
  intro p
  have origin : Camera.hillside.viewDepth 0 = 5 := by
    rw [Camera.viewDepth, Camera.hillside_viewPosition]
    change -((0 - 3) * (3 / 5) + (0 - 4) * (4 / 5)) = (5 : ℝ)
    norm_num
  have before : Camera.hillside.viewDepth ⟨0, 6 / 5, 8 / 5⟩ = 3 := by
    rw [Camera.viewDepth, Camera.hillside_viewPosition]
    norm_num
  have range : Camera.hillside.far = 10 := rfl
  obtain ⟨linear, fades⟩ :=
    fade_follows_view_depth Camera.hillside ⟨2, 1⟩ one_ne_zero (by norm_num [range])
      (by change (1 : ℝ) ≠ 10; norm_num)
  obtain ⟨less, nothing⟩ := fades one_pos (by change (1 : ℝ) < 10; norm_num) (1 / 2)
  refine ⟨?_, (nothing 0 ?_).2 ?_, less _ _ ?_ ?_, fun zero => ?_⟩
  · rw [linear 0 (by norm_num [origin]), origin, range]
    norm_num
  · norm_num [origin]
  · norm_num [origin, range]
  · norm_num [before]
  · norm_num [before, origin]
  · have reaches := (nothing _ (by norm_num [before])).1 zero
    norm_num [before, range] at reaches

end GroundPlane.Grid
