import Mathlib
import GroundPlane.Grid.Fragment
import GroundPlane.Lighting.Stage
import GroundPlane.Viewer.App
import GroundPlane.Proofs.Matrix
import GroundPlane.Proofs.SineRange
import GroundPlane.Proofs.SingleOrder

/-!
# Meshes and the grid have the same depths

In single precision, the depth of a vertex of a mesh is the depth that the grid writes at the same
point of the world, bit for bit (`depths_agree`). A matrix that ends in `0, 0, 0, 1` takes a finite
point to homogeneous coordinates that end in exactly one, whatever the signs of the zeros, so that
both stages multiply the same matrix with the same vector. The matrices of the viewer's cubes are of
this kind at every finite time.
-/

namespace GroundPlane

open Float.Model
open Rounding

/-! ## Zeros of either sign -/

namespace SinglePrecision

theorem beq_zero_iff {x : Float32} : x == 0 ↔ ∃ s, x.toModel.unpack = .zero s := by
  have zero : (0 : Float32).toModel.unpack = .zero .positive := rfl
  change x.toModel.unpack.beq (0 : Float32).toModel.unpack = true ↔ _
  rw [zero]
  cases x.toModel.unpack with
  | infinity s => cases s <;> simp [UnpackedFloat.beq, UnpackedFloat.compare]
  | finite s m e positive => cases s <;> simp [UnpackedFloat.beq, UnpackedFloat.compare]
  | zero s => simp [UnpackedFloat.beq, UnpackedFloat.compare]
  | notANumber => simp [UnpackedFloat.beq, UnpackedFloat.compare]

theorem mul_beq_zero {x y : Float32} (zero : x == 0) (finite : y.isFinite) : x * y == 0 := by
  obtain ⟨s, hs⟩ := beq_zero_iff.1 zero
  have product : ∃ t, UnpackedFloat.mul .binary32 x.toModel.unpack y.toModel.unpack = .zero t := by
    change y.toModel.unpack.isFinite = true at finite
    rw [hs]
    cases unpacked : y.toModel.unpack with
    | infinity => rw [unpacked] at finite; exact absurd finite Bool.false_ne_true
    | notANumber => rw [unpacked] at finite; exact absurd finite Bool.false_ne_true
    | zero t => exact ⟨_, rfl⟩
    | finite t m e positive => exact ⟨_, rfl⟩
  obtain ⟨t, ht⟩ := product
  refine beq_zero_iff.2 ⟨t, ?_⟩
  change UnpackedFloat.unpack .binary32 (UnpackedFloat.pack .binary32
    (.mul .binary32 x.toModel.unpack y.toModel.unpack)) = _
  rw [ht, unpack_pack_zero]

theorem add_beq_zero {x y : Float32} (hx : x == 0) (hy : y == 0) : x + y == 0 := by
  obtain ⟨s, hs⟩ := beq_zero_iff.1 hx
  obtain ⟨t, ht⟩ := beq_zero_iff.1 hy
  have sum : ∃ z, UnpackedFloat.add .binary32 x.toModel.unpack y.toModel.unpack = .zero z := by
    rw [hs, ht]
    cases s <;> cases t <;> exact ⟨_, rfl⟩
  obtain ⟨z, hz⟩ := sum
  refine beq_zero_iff.2 ⟨z, ?_⟩
  change UnpackedFloat.unpack .binary32 (UnpackedFloat.pack .binary32
    (.add .binary32 x.toModel.unpack y.toModel.unpack)) = _
  rw [hz, unpack_pack_zero]

theorem add_one_of_beq_zero {x : Float32} (zero : x == 0) : x + 1 = 1 := by
  obtain ⟨s, hs⟩ := beq_zero_iff.1 zero
  change Float32.ofModel (.pack (.add .binary32 x.toModel.unpack (1 : Float32).toModel.unpack)) = 1
  rw [hs]
  cases s <;> decide

end SinglePrecision

open SinglePrecision

/-! ## Affine matrices -/

/-- All components are finite. -/
def Vec3.IsFinite (v : Vec3 Float32) : Prop :=
  ∀ component ∈ v.toList, component.isFinite

namespace Mat4

/-- All entries are finite. -/
def IsFinite (m : Mat4 Float32) : Prop :=
  ∀ entry ∈ m.toList, entry.isFinite

/-- The last row is `0, 0, 0, 1`, with zeros of either sign. -/
def EndsAffine (m : Mat4 Float32) : Prop :=
  m.x.w == 0 ∧ m.y.w == 0 ∧ m.z.w == 0 ∧ m.w.w = 1

theorem EndsAffine.mulVec_w {m : Mat4 Float32} (affine : m.EndsAffine) {point : Vec3 Float32}
    (finite : point.IsFinite) : (m.mulVec (point.extend 1)).w = 1 := by
  obtain ⟨x, y, z, w⟩ := affine
  have unit : m.w.w * 1 = 1 := by
    rw [w]
    decide
  change m.x.w * point.x + m.y.w * point.y + m.z.w * point.z + m.w.w * 1 = 1
  rw [unit]
  apply add_one_of_beq_zero
  refine add_beq_zero (add_beq_zero (mul_beq_zero x ?_) (mul_beq_zero y ?_)) (mul_beq_zero z ?_)
  · exact finite _ (by simp [Vec3.toList])
  · exact finite _ (by simp [Vec3.toList])
  · exact finite _ (by simp [Vec3.toList])

/-- A finite point goes to a point, with no division needed. -/
theorem EndsAffine.mulVec_extend {m : Mat4 Float32} (affine : m.EndsAffine) {point : Vec3 Float32}
    (finite : point.IsFinite) :
    (m.mulVec (point.extend 1)).xyz.extend 1 = m.mulVec (point.extend 1) :=
  congrArg (Vec4.mk _ _ _) (affine.mulVec_w finite).symm

/-- Bounds of the entries of a product, for four rows of four entries. -/
theorem mulVec_atMost {m : Mat4 Float32} {v : Vec4 Float32} {i j : Int}
    (hm : ∀ entry ∈ m.toList, SingleAtMost i entry) (hv : ∀ component ∈ v.toList,
      SingleAtMost j component)
    (least : -149 ≤ i + j) (range : i + j + 3 ≤ 127) :
    ∀ component ∈ (m.mulVec v).toList, SingleAtMost (i + j + 3) component := by
  have term {a b : Float32} (ha : a ∈ m.toList) (hb : b ∈ v.toList) :
      SingleAtMost (i + j) (a * b) :=
    (hm a ha).mul (hv b hb) (by omega)
  have row {a b c d : Float32} (ha : SingleAtMost (i + j) a) (hb : SingleAtMost (i + j) b)
      (hc : SingleAtMost (i + j) c) (hd : SingleAtMost (i + j) d) :
        SingleAtMost (i + j + 3) (a + b + c + d) :=
    (((ha.add hb (by omega)).add hc (by omega)).add hd (by omega)).mono (by omega)
  simp only [toList, Vec4.toList, List.mem_append, List.mem_cons, List.not_mem_nil,
    or_false] at term
  rw [mulVec_def]
  simp only [Vec4.toList, List.forall_mem_cons, List.not_mem_nil, IsEmpty.forall_iff, implies_true,
    and_true]
  refine ⟨row ?_ ?_ ?_ ?_, row ?_ ?_ ?_ ?_, row ?_ ?_ ?_ ?_, row ?_ ?_ ?_ ?_⟩ <;>
    exact term (by simp) (by simp)

theorem mul_isFinite {a b : Mat4 Float32} {i j : Int}
    (ha : ∀ entry ∈ a.toList, SingleAtMost i entry) (hb : ∀ entry ∈ b.toList, SingleAtMost j entry)
    (least : -149 ≤ i + j) (range : i + j + 3 ≤ 127) :
    (a * b).IsFinite := by
  simp only [toList, List.forall_mem_append] at hb
  obtain ⟨⟨⟨x, y⟩, z⟩, w⟩ := hb
  unfold IsFinite
  simp only [mul_def, toList, List.forall_mem_append]
  refine ⟨⟨⟨?_, ?_⟩, ?_⟩, ?_⟩
  · exact fun entry h => (mulVec_atMost ha x least range entry h).isFinite
  · exact fun entry h => (mulVec_atMost ha y least range entry h).isFinite
  · exact fun entry h => (mulVec_atMost ha z least range entry h).isFinite
  · exact fun entry h => (mulVec_atMost ha w least range entry h).isFinite

/-! ## The viewer's cubes -/

theorem shift_atMost {t : Vec3 Float32} (ht : ∀ component ∈ t.toList, SingleAtMost 2 component) :
    ∀ entry ∈ (shift t).toList, SingleAtMost 2 entry := by
  have zero : SingleAtMost 2 (0 : Float32) := by decide
  have one : SingleAtMost 2 (1 : Float32) := by decide
  simp only [Vec3.toList, List.forall_mem_cons] at ht
  simp [shift, identity, Vec3.extend, toList, Vec4.toList, zero, one, ht]

theorem rotationY_atMost {angle : Float32} (finite : angle.isFinite) :
    ∀ entry ∈ (rotationY angle).toList, SingleAtMost 67 entry := by
  have zero : SingleAtMost 67 (0 : Float32) := by decide
  have one : SingleAtMost 67 (1 : Float32) := by decide
  have s : SingleAtMost 67 (Elementary.sin angle) := Sine.sin_atMost finite
  have c : SingleAtMost 67 (Elementary.cos angle) := Sine.cos_atMost finite
  simp [rotationY, toList, Vec4.toList, zero, one, s, c, s.neg (by decide)]

theorem endsAffine_shift_mul_rotationY (t : Vec3 Float32) {angle : Float32}
    (finite : angle.isFinite) : (shift t * rotationY angle).EndsAffine := by
  have s := Sine.sin_atMost finite
  have c := Sine.cos_atMost finite
  have zero : (0 : Float32).isFinite := by decide
  have one : (1 : Float32).isFinite := by decide
  have row {a b d : Float32} (ha : a.isFinite) (hb : b.isFinite) (hd : d.isFinite) :
      0 * a + 0 * b + 0 * d + 1 * 0 == 0 :=
    add_beq_zero (add_beq_zero (add_beq_zero (mul_beq_zero rfl ha) (mul_beq_zero rfl hb))
      (mul_beq_zero rfl hd)) rfl
  -- the last row of the shift meets each column of the rotation in turn
  refine ⟨?_, ?_, ?_, ?_⟩
  · exact row c.isFinite zero (s.neg (by decide)).isFinite
  · exact row zero one zero
  · exact row s.isFinite zero c.isFinite
  · change (0 * 0 + 0 * 0 + 0 * 0 + 1 * 1 : Float32) = 1
    decide

end Mat4

namespace Placement

theorem bounds {p : Placement} (placed : p ∈ placements) :
    (∀ component ∈ p.position.toList, SingleAtMost 2 component) ∧ SingleAtMost (-1) p.spin := by
  revert p
  decide

theorem angle_isFinite {p : Placement} (placed : p ∈ placements) {elapsed : Float32}
    (finite : elapsed.isFinite) : (p.spin * elapsed).isFinite :=
  ((bounds placed).2.mul (singleAtMost_of_isFinite finite) (by decide)).isFinite

theorem model_endsAffine {p : Placement} (placed : p ∈ placements) {elapsed : Float32}
    (finite : elapsed.isFinite) : (p.model elapsed).EndsAffine :=
  Mat4.endsAffine_shift_mul_rotationY _ (angle_isFinite placed finite)

theorem model_isFinite {p : Placement} (placed : p ∈ placements) {elapsed : Float32}
    (finite : elapsed.isFinite) : (p.model elapsed).IsFinite :=
  Mat4.mul_isFinite (Mat4.shift_atMost (bounds placed).1)
    (Mat4.rotationY_atMost (angle_isFinite placed finite)) (by decide) (by decide)

end Placement

/-! ## Agreement -/

/-- The clip position of a vertex is that of its world position, taken as a point. -/
theorem Lighting.vertex_clip {v : Vertex Float32} (p : Projector Float32)
    {object : Lighting.Object Float32} (affine : object.model.EndsAffine)
    (finite : v.position.IsFinite) :
    (Lighting.vertex v p object).clip =
      p.toClip.mulVec ((Lighting.vertex v p object).position.extend 1) :=
  congrArg p.toClip.mulVec (affine.mulVec_extend finite).symm

/-- A vertex of a mesh and the ground at the same place have the same depth, in every bit. The
matrices of the viewer's cubes qualify at every finite time. -/
theorem depths_agree :
    (∀ (v : Vertex Float32) (p : Projector Float32) (object : Lighting.Object Float32),
      object.model.EndsAffine → v.position.IsFinite →
      let shown := Lighting.vertex v p object
      shown.clip.z / shown.clip.w = p.depth shown.position ∧
        ∀ (rays : Patch (Grid.Ray Float32)) (style : Grid.Style Float32),
        rays.here.ground.position = shown.position →
          (Grid.fragment rays p style).depth = shown.clip.z / shown.clip.w) ∧
    ∀ (viewer : Viewer) (elapsed : Float32), elapsed.isFinite →
      ∀ object ∈ (viewer.updateObjects elapsed).objects,
      object.model.EndsAffine ∧ object.model.IsFinite := by
  refine ⟨?agree, ?placed⟩
  case agree =>
    intro v p object affine finite shown
    have same : shown.clip.z / shown.clip.w = p.depth shown.position := by
      rw [Lighting.vertex_clip p affine finite]
      rfl
    refine ⟨same, ?_⟩
    intro rays style meets
    rw [same, ← meets]
    rfl
  case placed =>
    intro viewer elapsed finite object drawn
    obtain ⟨p, placed, rfl⟩ := List.mem_map.1 drawn
    exact ⟨Placement.model_endsAffine placed finite, Placement.model_isFinite placed finite⟩

/-- A lower corner of the second cube touches the ground when the cube has turned by one radian, and
the ray straight down through it finds the ground there. -/
theorem depths_agree_turned_corner :
    let viewer := (Viewer.ofOptions .standard).updateObjects 2.5
    let object : Lighting.Object Float32 :=
      { model := Placement.model ⟨⟨-1.5, 0.5, -1.5⟩, 0.4⟩ 2.5, light := 0, normals := .derivative }
    let corner : Vertex Float32 :=
      { position := ⟨0.5, -0.5, 0.5⟩, color := ⟨1, 1, 1, 1⟩, uv := ⟨0, 0⟩, normal := ⟨0, -1, 0⟩ }
    let shown := Lighting.vertex corner .standard object
    let down : Grid.Ray Float32 := ⟨{ shown.position with y := 1 }, { shown.position with y := -1 }⟩
    object ∈ viewer.objects ∧ object.model.EndsAffine ∧ corner.position.IsFinite ∧
      down.ground.position = shown.position ∧
      (Grid.fragment (.constant down) .standard .standard).depth = shown.clip.z / shown.clip.w := by
  intro viewer object corner shown down
  have drawn : object ∈ viewer.objects := List.mem_map.2 ⟨_, .tail _ (.head _), rfl⟩
  have affine : object.model.EndsAffine :=
    (depths_agree.2 (Viewer.ofOptions .standard) 2.5 (by decide +kernel) object drawn).1
  have finite : corner.position.IsFinite := by
    unfold Vec3.IsFinite
    decide +kernel
  have meets : down.ground.position = shown.position := by decide +kernel
  refine ⟨drawn, affine, finite, meets, ?_⟩
  exact (depths_agree.1 corner .standard object affine finite).2 (.constant down) .standard meets

end GroundPlane
