import Mathlib
import GroundPlane.Mesh
import GroundPlane.Proofs.FacingNormal
import GroundPlane.Proofs.Rasterization

/-!
# Both sources of normals agree on cubes

A cube that is turned about the vertical axis and moved is lit alike with the normals of the mesh
and with those found across the screen (`normal_sources_agree_on_cubes`). Without rounding, a vector
that is perpendicular to both changes of position is a multiple of their cross product, and the
camera decides its sign: both normals point to the eye, the one because the side is not culled and
the other by `Camera.SeesPatch.volume_pos`. Turning keeps the right angles between the sides of the
cube and their normals.
-/

namespace GroundPlane

/-! ## Planes -/

section Planes

variable {K : Type} [Field K]

/-- The corners in order. -/
def Triangle.toList {β : Type} (t : Triangle β) : List β :=
  [t.a, t.b, t.c]

/-- Three points lie in the plane through the corners of a triangle. -/
def Triangle.Spans (t : Triangle (Vec3 K)) (points : Patch (Vec3 K)) : Prop :=
  ∃ w w' w'' : Weights K, points = ⟨t.blend w, t.blend w', t.blend w''⟩

/-- What is equally far along a vector at the corners of a triangle is so in all of its plane. -/
theorem Triangle.dot_blend {t : Triangle (Vec3 K)} {n : Vec3 K} {d : K} (ha : n.dot t.a = d)
    (hb : n.dot t.b = d) (hc : n.dot t.c = d) (w : Weights K) : n.dot (t.blend w) = d := by
  rw [Vec3.dot] at ha hb hc
  simp only [blend, Vec3.dot, Vec3.add_def, Vec3.scale_def]
  linear_combination w.a * ha + w.b * hb + w.c * hc + d * w.total

theorem Triangle.Spans.dot_eq_zero {t : Triangle (Vec3 K)} {points : Patch (Vec3 K)}
    (plane : t.Spans points) {n : Vec3 K} {d : K} (ha : n.dot t.a = d) (hb : n.dot t.b = d)
    (hc : n.dot t.c = d) : n.dot points.ddx = 0 ∧ n.dot points.ddy = 0 := by
  obtain ⟨w, w', w'', rfl⟩ := plane
  have level (w : Weights K) : n.dot (t.blend w) = d := dot_blend ha hb hc w
  constructor
  · rw [Patch.ddx, Vec3.dot_sub, level, level, sub_self]
  · rw [Patch.ddy, Vec3.dot_sub, level, level, sub_self]

end Planes

/-- A vector perpendicular to the changes of position across the screen, on the side of the camera,
has the direction of the normal that the lighting stage finds. -/
theorem Camera.SeesPatch.normalOfDerivatives_eq {c : Camera ℝ} {viewport : Viewport ℝ} {px py : ℝ}
    {points : Patch (Vec3 ℝ)} (seen : c.SeesPatch viewport px py points) (proper : c.IsProper)
    (valid : viewport.isValid) {n : Vec3 ℝ} (hx : n.dot points.ddx = 0) (hy : n.dot points.ddy = 0)
    (front : 0 < n.dot (c.eye - points.here)) :
    Lighting.normalOfDerivatives points.ddx points.ddy = n.normalize := by
  have volume := seen.volume_pos proper.forward proper.side proper.cot_pos valid
  have square := Vec3.dot_self_pos (Vec3.ne_zero_of_dot_pos volume)
  obtain ⟨k, rfl⟩ : ∃ k : ℝ, n = points.ddy.cross points.ddx * k :=
    ⟨_, Vec3.eq_cross_scale square.ne' hy hx⟩
  rw [Vec3.scale_dot] at front
  have positive : 0 < k := (mul_pos_iff_of_pos_left volume).1 front
  exact (Vec3.normalize_scale _ positive).symm

/-! ## The sides of a cube -/

namespace Mesh

section Triangles

variable {α : Type} [Scalar α]

/-- The triangles that a mesh is drawn as, three indices each. -/
def triangles (m : Mesh α) : List (Triangle (Vertex α)) :=
  Triangle.ofList (m.indices.filterMap fun i => m.vertices[i.toNat]?)

/-- The two triangles of a side: its first three corners, and the first, the third and the last. -/
def Face.triangles (f : Face α) (h : α) (color : Vec4 α) : List (Triangle (Vertex α)) :=
  Triangle.ofList ([0, 1, 2, 0, 2, 3].filterMap fun i => (corners.map (f.vertex h color))[i]?)

theorem cube_triangles (size : α) (color : Vec4 α) :
    (cube size color).triangles = faces.flatMap fun f => f.triangles (size * 0.5) color :=
  rfl

theorem Face.triangles_eq (f : Face α) (h : α) (color : Vec4 α) :
    f.triangles h color =
      [⟨f.vertex h color (-1, -1, ⟨0, 1⟩), f.vertex h color (1, -1, ⟨1, 1⟩),
        f.vertex h color (1, 1, ⟨1, 0⟩)⟩,
       ⟨f.vertex h color (-1, -1, ⟨0, 1⟩), f.vertex h color (1, 1, ⟨1, 0⟩),
         f.vertex h color (-1, 1, ⟨0, 0⟩)⟩] :=
  rfl

theorem Face.exists_vertex {f : Face α} {h : α} {color : Vec4 α} {t : Triangle (Vertex α)}
    (drawn : t ∈ f.triangles h color) {v : Vertex α} (corner : v ∈ t.toList) :
    ∃ k, v = f.vertex h color k := by
  rw [triangles_eq, List.mem_pair] at drawn
  obtain rfl | rfl := drawn
  · simp only [Triangle.toList, List.mem_cons, List.not_mem_nil, or_false] at corner
    obtain rfl | rfl | rfl := corner <;> exact ⟨_, rfl⟩
  · simp only [Triangle.toList, List.mem_cons, List.not_mem_nil, or_false] at corner
    obtain rfl | rfl | rfl := corner <;> exact ⟨_, rfl⟩

end Triangles

namespace Face

variable {f : Face ℝ} {h : ℝ} {color : Vec4 ℝ}

theorem cross_of_mem (side : f ∈ faces) : f.u.cross f.v = f.normal := by
  simp only [faces, List.mem_cons, List.not_mem_nil, or_false] at side
  obtain rfl | rfl | rfl | rfl | rfl | rfl := side <;> simp [Vec3.cross]

theorem normal_dot_self_of_mem (side : f ∈ faces) : f.normal.dot f.normal = 1 := by
  simp only [faces, List.mem_cons, List.not_mem_nil, or_false] at side
  obtain rfl | rfl | rfl | rfl | rfl | rfl := side <;> simp [Vec3.dot]

/-- All of a side is half an edge away from the center, along the normal. -/
theorem normal_dot_position (side : f ∈ faces) (k : ℝ × ℝ × Vec2 ℝ) :
    f.normal.dot (f.vertex h color k).position = h := by
  have unit := normal_dot_self_of_mem side
  have hu := Vec3.cross_dot_left f.u f.v
  have hv := Vec3.cross_dot_right f.u f.v
  rw [cross_of_mem side, Vec3.dot] at hu hv
  rw [Vec3.dot] at unit
  change f.normal.dot ((f.normal + f.u * k.1 + f.v * k.2.1) * h) = h
  simp only [Vec3.scale_def, Vec3.add_def, Vec3.dot]
  linear_combination h * unit + h * k.1 * hu + h * k.2.1 * hv

/-- The corners of both triangles run counterclockwise about the normal. -/
theorem edges_cross (side : f ∈ faces) {t : Triangle (Vertex ℝ)} (drawn : t ∈ f.triangles h color) :
    (t.b.position - t.a.position).cross (t.c.position - t.a.position) = f.normal * (4 * h * h) := by
  have position (su sv : ℝ) (uv : Vec2 ℝ) :
      (f.vertex h color (su, sv, uv)).position = (f.normal + f.u * su + f.v * sv) * h := rfl
  rw [triangles_eq, List.mem_pair] at drawn
  rw [← cross_of_mem side]
  obtain rfl | rfl := drawn
  · simp only [position, Vec3.sub_def, Vec3.add_def, Vec3.scale_def, Vec3.cross, Vec3.mk.injEq]
    refine ⟨?_, ?_, ?_⟩ <;> ring
  · simp only [position, Vec3.sub_def, Vec3.add_def, Vec3.scale_def, Vec3.cross, Vec3.mk.injEq]
    refine ⟨?_, ?_, ?_⟩ <;> ring

end Face

end Mesh

/-! ## Turning and moving -/

/-- A vector turned about the vertical axis. -/
noncomputable def Vec3.turn (angle : ℝ) (v : Vec3 ℝ) : Vec3 ℝ :=
  (Mat4.rotationY angle).linear.mulVec v

namespace Vec3

variable (angle : ℝ) (a b : Vec3 ℝ)

theorem turn_eq :
    a.turn angle =
      ⟨Real.cos angle * a.x + Real.sin angle * a.z, a.y,
        -Real.sin angle * a.x + Real.cos angle * a.z⟩ := by
  change (⟨Real.cos angle * a.x + 0 * a.y + Real.sin angle * a.z, 0 * a.x + 1 * a.y + 0 * a.z,
    -Real.sin angle * a.x + 0 * a.y + Real.cos angle * a.z⟩ : Vec3 ℝ) = _
  ext <;> ring

theorem turn_dot_turn : (a.turn angle).dot (b.turn angle) = a.dot b := by
  simp only [turn_eq, dot]
  linear_combination (a.x * b.x + a.z * b.z) * Real.sin_sq_add_cos_sq angle

end Vec3

namespace Mat4

variable (t : Vec3 ℝ) (angle : ℝ) (v : Vec3 ℝ)

theorem shift_mul_rotationY_point :
    ((shift t * rotationY angle).mulVec (v.extend 1)).xyz = v.turn angle + t := by
  rw [Vec3.turn_eq, mul_mulVec]
  simp [mulVec_def, shift, identity, rotationY, Vec3.extend, Vec4.xyz, Vec3.add_def, Elementary.sin,
    Elementary.cos]

/-- Moving does not change directions. -/
theorem shift_mul_rotationY_linear :
    (shift t * rotationY angle).linear.mulVec v = v.turn angle := by
  have columns : (shift t * rotationY angle).linear = (rotationY angle).linear := by
    simp [linear, mul_def, mulVec_def, shift, identity, rotationY, Vec3.extend, Vec4.xyz]
  rw [columns]
  rfl

end Mat4

namespace Mesh.Face

variable {f : Face ℝ} {h : ℝ} {color : Vec4 ℝ}

/-- After turning and moving, all of a side is equally far along the turned normal. -/
theorem turn_normal_dot_point (side : f ∈ faces) (t : Vec3 ℝ) (angle : ℝ) (k : ℝ × ℝ × Vec2 ℝ) :
    (f.normal.turn angle).dot
      ((Mat4.shift t * Mat4.rotationY angle).mulVec ((f.vertex h color k).position.extend 1)).xyz =
        h + (f.normal.turn angle).dot t := by
  have before : f.normal.dot (f.vertex h color k).position = h := normal_dot_position side k
  rw [← Vec3.turn_dot_turn angle] at before
  rw [Mat4.shift_mul_rotationY_point, Vec3.dot_add, before]

end Mesh.Face

/-! ## Agreement -/

namespace Lighting

/-- A cube is drawn as two triangles on each side, whose corners run counterclockwise about their
outward normals. Let a proper camera see three fragments of the plane of such a triangle, turned and
moved, at a pixel, to its right and below it. If the normal that the fragment got from a corner
points to the camera, then it has the direction of the normal found across the screen, and the
fragment has the same color with either, for every texel and every light. -/
theorem normal_sources_agree_on_cubes (size : ℝ) (color : Vec4 ℝ) (positive : 0 < size) :
    (Mesh.cube size color).triangles =
      Mesh.faces.flatMap (fun f => f.triangles (size * 0.5) color) ∧
    ∀ triangle ∈ (Mesh.cube size color).triangles, ∀ corner ∈ triangle.toList,
      0 < corner.normal.dot corner.position ∧
      0 < ((triangle.b.position - triangle.a.position).cross
        (triangle.c.position - triangle.a.position)).dot corner.normal ∧
      ∀ (t : Vec3 ℝ) (angle : ℝ) (light : Vec3 ℝ) (c : Camera ℝ) (viewport : Viewport ℝ) (px py : ℝ)
        (patch : Patch (Varying ℝ)) (texel : Vec4 ℝ),
        let object (normals : NormalSource) : Object ℝ :=
          { model := .shift t * .rotationY angle, light, normals }
        let shown (v : Vertex ℝ) : Varying ℝ := vertex v (c.projector viewport) (object .vertex)
        let points := patch.map Varying.position
        c.IsProper → viewport.isValid → c.SeesPatch viewport px py points →
        (triangle.map fun v => (shown v).position).Spans points →
          patch.here.normal = (shown corner).normal →
        0 < patch.here.normal.dot (c.eye - points.here) →
        normalOfDerivatives points.ddx points.ddy = (shown corner).normal.normalize ∧
          fragment patch texel (object .derivative) = fragment patch texel (object .vertex) := by
  refine ⟨Mesh.cube_triangles size color, fun triangle drawn corner mem => ?_⟩
  have half : 0 < size * 0.5 := by positivity
  rw [Mesh.cube_triangles, List.mem_flatMap] at drawn
  obtain ⟨f, side, drawn⟩ := drawn
  obtain ⟨k, rfl⟩ := Mesh.Face.exists_vertex drawn mem
  refine ⟨?outward, ?wound, ?agree⟩
  case outward => exact (Mesh.Face.normal_dot_position side k).symm ▸ half
  case wound =>
    rw [Mesh.Face.edges_cross side drawn, Vec3.scale_dot]
    change 0 < f.normal.dot f.normal * _
    rw [Mesh.Face.normal_dot_self_of_mem side, one_mul]
    positivity
  case agree =>
    intro t angle light c viewport px py patch texel object shown points proper valid seen plane
      carried front
    have normal : (shown (f.vertex (size * 0.5) color k)).normal = f.normal.turn angle :=
      Mat4.shift_mul_rotationY_linear t angle _
    have level {v : Vertex ℝ} (hv : v ∈ triangle.toList) :
        (f.normal.turn angle).dot (shown v).position =
          size * 0.5 + (f.normal.turn angle).dot t := by
      obtain ⟨k, rfl⟩ := Mesh.Face.exists_vertex drawn hv
      exact Mesh.Face.turn_normal_dot_point side t angle k
    rw [carried, normal] at front
    -- the side is level along its turned normal, and so are the three fragments
    obtain ⟨hx, hy⟩ : (f.normal.turn angle).dot points.ddx = 0 ∧
        (f.normal.turn angle).dot points.ddy = 0 :=
      plane.dot_eq_zero (level (.head _)) (level (.tail _ (.head _)))
        (level (.tail _ (.tail _ (.head _))))
    have same := seen.normalOfDerivatives_eq proper valid hx hy front
    have sources : fragmentNormal patch .derivative = fragmentNormal patch .vertex := by
      change normalOfDerivatives points.ddx points.ddy = patch.here.normal.normalize
      rw [carried, normal]
      exact same
    refine ⟨normal ▸ same, ?_⟩
    exact congrArg
      (fun n => (patch.here.color.xyz * diffuse n patch.here.position light * texel.xyz).extend 1)
      sources

/-- A cube turned by a right angle, with its upper side in the ground before a camera on a
hillside. -/
theorem normal_sources_agree_on_cubes_buried :
    let c := Camera.hillside
    let white : Vec4 ℝ := ⟨1, 1, 1, 1⟩
    let object (normals : NormalSource) : Object ℝ :=
      { model := .shift ⟨0, -1, 0⟩ * .rotationY (Real.pi / 2), light := ⟨2, 5, 1⟩, normals }
    let shown (v : Vertex ℝ) : Varying ℝ := vertex v (c.projector ⟨2, 1⟩) (object .vertex)
    let points : Patch (Vec3 ℝ) := ⟨⟨0, 0, 0⟩, ⟨10, 0, 0⟩, ⟨0, 0, 50 / 11⟩⟩
    let patch : Patch (Varying ℝ) := points.map fun position =>
      { clip := 0, position, color := white, uv := 0, normal := ⟨0, 1, 0⟩ }
    ∃ triangle ∈ (Mesh.cube 2 white).triangles,
      (triangle.map fun v => (shown v).position).Spans points ∧
        patch.here.normal = (shown triangle.a).normal ∧
        0 < patch.here.normal.dot (c.eye - patch.here.position) ∧
        fragment patch white (object .derivative) = fragment patch white (object .vertex) := by
  intro c white object shown points patch
  let top : Mesh.Face ℝ := ⟨⟨0, 1, 0⟩, ⟨1, 0, 0⟩, ⟨0, 0, -1⟩⟩
  let corner (su sv : ℝ) (uv : Vec2 ℝ) : Vertex ℝ := top.vertex (2 * 0.5) white (su, sv, uv)
  have place (su sv : ℝ) (uv : Vec2 ℝ) : (shown (corner su sv uv)).position = ⟨-sv, 0, -su⟩ := by
    refine (Mat4.shift_mul_rotationY_point _ _ _).trans ?_
    rw [Vec3.turn_eq, Real.cos_pi_div_two, Real.sin_pi_div_two]
    change (⟨0 * ((0 + 1 * su + 0 * sv) * (2 * 0.5)) + 1 * ((0 + 0 * su + -1 * sv) * (2 * 0.5)) + 0,
      (1 + 0 * su + 0 * sv) * (2 * 0.5) + -1,
      -1 * ((0 + 1 * su + 0 * sv) * (2 * 0.5)) + 0 * ((0 + 0 * su + -1 * sv) * (2 * 0.5)) + 0⟩ :
      Vec3 ℝ) = _
    ext <;> ring
  have drawn : ⟨corner (-1) (-1) ⟨0, 1⟩, corner 1 (-1) ⟨1, 1⟩, corner 1 1 ⟨1, 0⟩⟩ ∈
      (Mesh.cube 2 white).triangles := by
    rw [Mesh.cube_triangles, List.mem_flatMap]
    exact ⟨top, .tail _ (.tail _ (.head _)), .head _⟩
  let weights (x z : ℝ) : Weights ℝ := ⟨(1 + z) / 2, (x - z) / 2, (1 - x) / 2, by ring⟩
  have blend (x z : ℝ) :
      Triangle.blend ⟨(shown (corner (-1) (-1) ⟨0, 1⟩)).position,
        (shown (corner 1 (-1) ⟨1, 1⟩)).position,
        (shown (corner 1 1 ⟨1, 0⟩)).position⟩ (weights x z) = ⟨x, 0, z⟩ := by
    rw [place, place, place]
    simp only [Triangle.blend, weights, Vec3.scale_def, Vec3.add_def, Vec3.mk.injEq]
    refine ⟨?_, ?_, ?_⟩ <;> ring
  have plane :
      Triangle.Spans ⟨(shown (corner (-1) (-1) ⟨0, 1⟩)).position,
        (shown (corner 1 (-1) ⟨1, 1⟩)).position,
      (shown (corner 1 1 ⟨1, 0⟩)).position⟩ points := by
    refine ⟨weights 0 0, weights 10 0, weights 0 (50 / 11), ?_⟩
    rw [blend, blend, blend]
  have carried : patch.here.normal = (shown (corner (-1) (-1) ⟨0, 1⟩)).normal := by
    refine Eq.trans ?_ (Mat4.shift_mul_rotationY_linear _ _ _).symm
    rw [Vec3.turn_eq, Real.cos_pi_div_two, Real.sin_pi_div_two]
    change (⟨0, 1, 0⟩ : Vec3 ℝ) = ⟨0 * 0 + 1 * 0, 1, -1 * 0 + 0 * 0⟩
    ext <;> ring
  have front : 0 < patch.here.normal.dot (c.eye - patch.here.position) := by
    change (0 : ℝ) < 0 * (0 - 0) + 1 * (3 - 0) + 0 * (4 - 0)
    norm_num
  refine ⟨_, drawn, plane, carried, front, ?_⟩
  have agree := ((normal_sources_agree_on_cubes 2 white two_pos).2 _ drawn _ (.head _)).2.2
  exact (agree ⟨0, -1, 0⟩ (Real.pi / 2) ⟨2, 5, 1⟩ c ⟨2, 1⟩ 1 (1 / 2) patch white
    Camera.hillside_isProper Camera.hillside_isValid Camera.hillside_seesPatch
    plane carried front).2

end Lighting

end GroundPlane
