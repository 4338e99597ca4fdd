import Mathlib
import GroundPlane.Gpu.Layout
import GroundPlane.Grid.Fragment
import GroundPlane.Proofs.CameraMatrix

/-!
# The view rays inside the screen are blends of those at its corners

The grid is drawn as two triangles over the screen, with a view ray at each corner. The rasterizer
blends the rays of the corners, while the fragment stage is stated for the ray through the pixel
itself. For the projector of a camera the two are the same (`quad_blends_view_rays`): the ends of a
view ray are affine in the position on the screen, because the divisor of the unprojection is the
same all over a clip plane.
-/

namespace GroundPlane

open Gpu

/-- A triangle, by what is at its corners. -/
structure Triangle (β : Type) where
  a : β
  b : β
  c : β

/-- Weights of the corners of a triangle. -/
structure Weights (K : Type) [Add K] [One K] where
  a : K
  b : K
  c : K
  total : a + b + c = 1

namespace Triangle

variable {β γ : Type}

/-- Applies a function at each corner. -/
def map (f : β → γ) (t : Triangle β) : Triangle γ :=
  ⟨f t.a, f t.b, f t.c⟩

/-- The triangles of a list of corners, three corners each. -/
def ofList : List β → List (Triangle β)
  | a :: b :: c :: rest => ⟨a, b, c⟩ :: ofList rest
  | _ => []

/-- The weighted sum of what is at the corners. -/
def blend {K : Type} [Add K] [One K] [Add β] [HMul β K β] (t : Triangle β) (w : Weights K) : β :=
  t.a * w.a + t.b * w.b + t.c * w.c

end Triangle

variable {K : Type} [Field K]

/-! ## Affine functions -/

/-- Blending commutes with functions that are affine in the position. -/
theorem Triangle.blend_map {f : Vec2 K → Vec3 K} {o u v : Vec3 K}
    (affine : ∀ ndc, f ndc = o + u * ndc.x + v * ndc.y) (t : Triangle (Vec2 K)) (w : Weights K) :
    (t.map f).blend w = f (t.blend w) := by
  change f t.a * w.a + f t.b * w.b + f t.c * w.c = f (t.a * w.a + t.b * w.b + t.c * w.c)
  rw [affine, affine, affine, affine]
  simp only [Vec2.add_def, Vec2.scale_def, Vec3.add_def, Vec3.scale_def, Vec3.mk.injEq]
  refine ⟨?_, ?_, ?_⟩
  · linear_combination o.x * w.total
  · linear_combination o.y * w.total
  · linear_combination o.z * w.total

variable [LinearOrder K] [FloorRing K] [SquareRoot K]

/-- Where the divisor does not depend on the position, the unprojection of a plane of equal depth is
affine. -/
theorem Projector.unproject_affine {p : Projector K} {z divisor : K}
    (same : ∀ ndc : Vec2 K, (p.ofClip.mulVec ((ndc.extend z).extend 1)).w = divisor) :
    ∃ o u v : Vec3 K, ∀ ndc : Vec2 K, p.unproject (ndc.extend z) = o + u * ndc.x + v * ndc.y := by
  refine ⟨(p.ofClip.mulVec ⟨0, 0, z, 1⟩).xyz / divisor, p.ofClip.x.xyz / divisor,
    p.ofClip.y.xyz / divisor, fun ndc => ?_⟩
  have unprojected :
      p.unproject (ndc.extend z) = (p.ofClip.mulVec ((ndc.extend z).extend 1)).xyz / divisor := by
    rw [← same ndc]
    rfl
  rw [unprojected]
  simp only [Mat4.mulVec_def, Vec2.extend, Vec3.extend, Vec4.xyz, Vec3.add_def, Vec3.scale_def,
    Vec3.div_def, Vec3.mk.injEq]
  refine ⟨?_, ?_, ?_⟩ <;> ring

namespace Grid

/-- The blend of the rays at the corners of a triangle. -/
def Ray.blend (t : Triangle (Ray K)) (w : Weights K) : Ray K :=
  { near := (t.map Ray.near).blend w, far := (t.map Ray.far).blend w }

/-- If both ends of the view rays are affine, then blending the rays of the corners gives the ray of
the blend. -/
theorem Ray.blend_through {p : Projector K} {o u v o' u' v' : Vec3 K}
    (near : ∀ ndc : Vec2 K, p.unproject (ndc.extend 0) = o + u * ndc.x + v * ndc.y)
    (far : ∀ ndc : Vec2 K, p.unproject (ndc.extend 1) = o' + u' * ndc.x + v' * ndc.y)
    (t : Triangle (Vec2 K)) (w : Weights K) :
    blend (t.map fun corner => (Corner.ofNdc p corner).ray) w =
      (Corner.ofNdc p (t.blend w)).ray := by
  have nears := Triangle.blend_map near t w
  have fars := Triangle.blend_map far t w
  change (⟨(t.map fun corner => p.unproject (corner.extend 0)).blend w,
    (t.map fun corner => p.unproject (corner.extend 1)).blend w⟩ : Ray K) = _
  rw [nears, fars]
  rfl

end Grid

/-! ## The screen -/

/-- The triangles that the grid is drawn as. -/
def screenTriangles : List (Triangle (Vec2 K)) :=
  Triangle.ofList (screenIndices.filterMap fun i => screenCorners[i.toNat]?)

/-- The screen is cut along its rising diagonal. -/
theorem screenTriangles_eq :
    (screenTriangles : List (Triangle (Vec2 K))) =
      [⟨⟨-1, -1⟩, ⟨1, -1⟩, ⟨1, 1⟩⟩, ⟨⟨-1, -1⟩, ⟨1, 1⟩, ⟨-1, 1⟩⟩] :=
  rfl

/-- The weights blend to a position within the triangle. -/
def Weights.IsInside (w : Weights K) : Prop :=
  0 ≤ w.a ∧ 0 ≤ w.b ∧ 0 ≤ w.c

/-- The position is on the screen. -/
def Vec2.OnScreen (ndc : Vec2 K) : Prop :=
  -1 ≤ ndc.x ∧ ndc.x ≤ 1 ∧ -1 ≤ ndc.y ∧ ndc.y ≤ 1

namespace Weights

/-- The weights of a position in the triangle below the diagonal. -/
def below (ndc : Vec2 K) : Weights K where
  a := (1 - ndc.x) * 0.5
  b := (ndc.x - ndc.y) * 0.5
  c := (1 + ndc.y) * 0.5
  total := by ring

/-- The weights of a position in the triangle above the diagonal. -/
def above (ndc : Vec2 K) : Weights K where
  a := (1 - ndc.y) * 0.5
  b := (1 + ndc.x) * 0.5
  c := (ndc.y - ndc.x) * 0.5
  total := by ring

theorem blend_below (ndc : Vec2 K) :
    Triangle.blend ⟨(⟨-1, -1⟩ : Vec2 K), ⟨1, -1⟩, ⟨1, 1⟩⟩ (below ndc) = ndc := by
  simp only [Triangle.blend, below, Vec2.add_def, Vec2.scale_def]
  ext <;> ring

theorem blend_above (ndc : Vec2 K) :
    Triangle.blend ⟨(⟨-1, -1⟩ : Vec2 K), ⟨1, 1⟩, ⟨-1, 1⟩⟩ (above ndc) = ndc := by
  simp only [Triangle.blend, above, Vec2.add_def, Vec2.scale_def]
  ext <;> ring

end Weights

theorem exists_weights {t : Triangle (Vec2 K)} (ht : t ∈ screenTriangles) (ndc : Vec2 K) :
    ∃ w : Weights K, t.blend w = ndc := by
  rw [screenTriangles_eq, List.mem_pair] at ht
  rcases ht with rfl | rfl
  · exact ⟨.below ndc, Weights.blend_below ndc⟩
  · exact ⟨.above ndc, Weights.blend_above ndc⟩

variable [IsStrictOrderedRing K]

/-- The triangles cover the screen. -/
theorem exists_weights_inside {ndc : Vec2 K} (seen : ndc.OnScreen) :
    ∃ t ∈ screenTriangles, ∃ w : Weights K, w.IsInside ∧ t.blend w = ndc := by
  obtain ⟨left, right, bottom, top⟩ := seen
  have half : (0 : K) ≤ 0.5 := by norm_num
  rw [screenTriangles_eq]
  rcases le_total ndc.y ndc.x with low | high
  · refine ⟨_, List.mem_cons_self, .below ndc, ⟨?_, ?_, ?_⟩, Weights.blend_below ndc⟩
    · exact mul_nonneg (by linarith) half
    · exact mul_nonneg (by linarith) half
    · exact mul_nonneg (by linarith) half
  · refine ⟨_, List.mem_cons_of_mem _ List.mem_cons_self, .above ndc, ⟨?_, ?_, ?_⟩,
      Weights.blend_above ndc⟩
    · exact mul_nonneg (by linarith) half
    · exact mul_nonneg (by linarith) half
    · exact mul_nonneg (by linarith) half

/-- The pixels of a viewport are on the screen. -/
theorem Viewport.onScreen_toNdc {v : Viewport K} {px py : K} (left : 0 ≤ px) (right : px ≤ v.width)
    (top : 0 ≤ py) (bottom : py ≤ v.height) (area : v.isValid) : (v.toNdc px py).OnScreen := by
  simp only [isValid, Bool.and_eq_true, decide_eq_true_eq] at area
  obtain ⟨⟨⟨width, height⟩, -⟩, -⟩ := area
  have x₀ : 0 ≤ px / v.width := div_nonneg left width.le
  have x₁ : px / v.width ≤ 1 := (div_le_one width).2 right
  have y₀ : 0 ≤ py / v.height := div_nonneg top height.le
  have y₁ : py / v.height ≤ 1 := (div_le_one height).2 bottom
  have two : (2.0 : K) = 2 := by norm_num
  change -1 ≤ px / v.width * 2.0 - 1 ∧ px / v.width * 2.0 - 1 ≤ 1 ∧ -1 ≤ 1 - py / v.height * 2.0 ∧
    1 - py / v.height * 2.0 ≤ 1
  rw [two]
  refine ⟨?_, ?_, ?_, ?_⟩ <;> linarith

/-! ## Pixels -/

namespace Grid

/-- The rays that the rasterizer hands to a pixel and its neighbours: a triangle of the screen
covers the pixel, and the rays at its corners are blended with the weights of the three positions.
Neighbours may be outside of the triangle. -/
def Rasterizes (p : Projector K) (viewport : Viewport K) (px py : K) (rays : Patch (Ray K)) :
    Prop :=
  ∃ t ∈ screenTriangles, ∃ w : Patch (Weights K), w.here.IsInside ∧
    w.map t.blend = .sample px py viewport.toNdc ∧
    rays = w.map (Ray.blend (t.map fun corner => (Corner.ofNdc p corner).ray))

theorem rasterizes_iff {p : Projector K} {viewport : Viewport K} {px py : K}
    (blends : ∀ (t : Triangle (Vec2 K)) (w : Weights K),
      Ray.blend (t.map fun corner => (Corner.ofNdc p corner).ray) w =
        (Corner.ofNdc p (t.blend w)).ray)
    (seen : (viewport.toNdc px py).OnScreen) (rays : Patch (Ray K)) :
    Rasterizes p viewport px py rays ↔
      rays = .sample px py fun x y => (Corner.ofNdc p (viewport.toNdc x y)).ray := by
  constructor
  · rintro ⟨t, ht, w, -, located, rfl⟩
    have here : t.blend w.here = viewport.toNdc px py := congrArg Patch.here located
    have right : t.blend w.right = viewport.toNdc (px + 1) py := congrArg Patch.right located
    have below : t.blend w.below = viewport.toNdc px (py + 1) := congrArg Patch.below located
    simp only [Patch.map, Patch.sample, blends, here, right, below]
  · rintro rfl
    obtain ⟨t, ht, here, inside, hhere⟩ := exists_weights_inside seen
    obtain ⟨right, hright⟩ := exists_weights ht (viewport.toNdc (px + 1) py)
    obtain ⟨below, hbelow⟩ := exists_weights ht (viewport.toNdc px (py + 1))
    refine ⟨t, ht, ⟨here, right, below⟩, inside, ?_, ?_⟩
    · simp only [Patch.map, Patch.sample, hhere, hright, hbelow]
    · simp only [Patch.map, Patch.sample, blends, hhere, hright, hbelow]

variable [Elementary K]

/-- Let the directions of a camera form a basis and let its frustum have volume. Then both ends of
the view ray through a position are affine in the position. So the blend of the rays at the corners
of a triangle of the screen is the ray through the blend of the corners, the triangles cover the
screen, and what the rasterizer hands to a pixel are the view rays through the pixel and its
neighbours. -/
theorem quad_blends_view_rays (c : Camera K) (viewport : Viewport K) (forward : c.forward ≠ 0)
    (side : c.side ≠ 0) (near : 0 < c.near) (far : c.near < c.far)
    (sin : Elementary.sin (0.5 * c.fovY) ≠ 0) (cos : Elementary.cos (0.5 * c.fovY) ≠ 0) :
    let p := c.projector viewport
    (∃ o u v : Vec3 K, ∀ ndc : Vec2 K, (p.ofClip.mulVec ((ndc.extend 0).extend 1)).w ≠ 0 ∧
      (Corner.ofNdc p ndc).ray.near = o + u * ndc.x + v * ndc.y) ∧
    (∃ o u v : Vec3 K, ∀ ndc : Vec2 K, (p.ofClip.mulVec ((ndc.extend 1).extend 1)).w ≠ 0 ∧
      (Corner.ofNdc p ndc).ray.far = o + u * ndc.x + v * ndc.y) ∧
    (∀ t ∈ screenTriangles, ∀ w : Weights K,
      Ray.blend (t.map fun corner => (Corner.ofNdc p corner).ray) w =
        (Corner.ofNdc p (t.blend w)).ray) ∧
    (∀ ndc : Vec2 K, ndc.OnScreen → ∃ t ∈ screenTriangles, ∃ w : Weights K,
      w.IsInside ∧ t.blend w = ndc) ∧
    ∀ px py : K, viewport.isValid → 0 ≤ px → px ≤ viewport.width → 0 ≤ py → py ≤ viewport.height →
      ∀ rays, Rasterizes p viewport px py rays ↔
        rays = .sample px py fun x y => (Corner.ofNdc p (viewport.toNdc x y)).ray := by
  intro p
  have view : c.view.IsInvertible := Camera.view_isInvertible forward side
  have projection : (c.projection viewport.aspect).IsInvertible :=
    Camera.projection_isInvertible sin cos viewport.aspect_pos.ne' near.ne'
      (near.trans far).ne' far.ne
  obtain ⟨o, u, v, nears⟩ := Projector.unproject_affine (Camera.ofClip_near view projection)
  obtain ⟨o', u', v', fars⟩ := Projector.unproject_affine (Camera.ofClip_far view projection)
  have blends := Ray.blend_through nears fars
  refine ⟨⟨o, u, v, fun ndc => ?_⟩, ⟨o', u', v', fun ndc => ?_⟩, ?_,
    fun ndc seen => exists_weights_inside seen, ?_⟩
  · exact ⟨Camera.ofClip_near_ne_zero view projection ndc, nears ndc⟩
  · exact ⟨Camera.ofClip_far_ne_zero view projection ndc, fars ndc⟩
  · exact fun t _ w => blends t w
  · intro px py area left right top bottom
    exact rasterizes_iff blends (Viewport.onScreen_toNdc left right top bottom area)

theorem quad_blends_view_rays_hillside :
    let c := Camera.hillside
    let p := c.projector ⟨2, 1⟩
    c.forward ≠ 0 ∧ c.side ≠ 0 ∧ 0 < c.near ∧ c.near < c.far ∧ Elementary.sin (0.5 * c.fovY) ≠ 0 ∧
      Elementary.cos (0.5 * c.fovY) ≠ 0 ∧
      ∀ rays, Rasterizes p ⟨2, 1⟩ (3 / 2) (1 / 2) rays ↔
        rays = .sample (3 / 2) (1 / 2) fun x y =>
          (Corner.ofNdc p (Viewport.toNdc ⟨2, 1⟩ x y)).ray := by
  intro c p
  have near : (0 : ℝ) < c.near := one_pos
  have far : c.near < c.far := by
    change (1 : ℝ) < 10
    norm_num
  have area : Viewport.isValid (⟨2, 1⟩ : Viewport ℝ) := by simp [Viewport.isValid, Scalar.isFinite]
  obtain ⟨-, -, -, -, pixels⟩ := quad_blends_view_rays c ⟨2, 1⟩ Camera.hillside_forward_ne_zero
    Camera.hillside_side_ne_zero near far Camera.hillside_sin_ne_zero Camera.hillside_cos_ne_zero
  refine ⟨Camera.hillside_forward_ne_zero, Camera.hillside_side_ne_zero, near, far,
    Camera.hillside_sin_ne_zero, Camera.hillside_cos_ne_zero, ?_⟩
  exact pixels (3 / 2) (1 / 2) area (by norm_num) (by norm_num) (by norm_num) (by norm_num)

end Grid

end GroundPlane
