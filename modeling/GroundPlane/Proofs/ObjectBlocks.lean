import Mathlib
import GroundPlane.Proofs.LitRenderer
import GroundPlane.Proofs.Alignment

/-!
# Every draw reads the block of its own object

The blocks of all objects share one buffer, a stride apart. The stride is the size of a block
rounded up to the alignment of the device (`isLeast_objectStride`), without leaving the words
(`alignTo?_litBlockSize`). The buffer has room for a power of two of blocks
(`isLeast_objectCapacity`), which may be left over from an earlier drawing of more or fewer objects.
What is staged has each block at its place and zeros in between (`holdsBlocks_objectBytes`), and
copying the blocks there one by one never leaves the staged bytes (`stage?_eq`). So each draw finds
its object at its offset (`draws_read_own_blocks`).
-/

namespace GroundPlane

open Gpu Recording

/-! ## Strides -/

namespace LitRenderer

section

variable {alignment : UInt64} (power : alignment.toNat.isPowerOfTwo)

include power

theorem litBlockSize_add_lt : (UInt64.ofNat litBlockSize).toNat + alignment.toNat < 2 ^ 64 := by
  have twice := add_le_of_dvd power (dvd_refl alignment.toNat)
  have size : (UInt64.ofNat litBlockSize).toNat = 224 := rfl
  omega

theorem isLeast_objectStride :
    IsLeast {s : Nat | alignment.toNat ∣ s ∧ litBlockSize ≤ s} (objectStride alignment) :=
  isLeast_alignTo power (litBlockSize_add_lt power).le

/-- The stride, which is computed in words that wrap around, is the checked one. -/
theorem alignTo?_litBlockSize :
    (alignTo? (.ofNat litBlockSize) alignment).map UInt64.toNat =
      some (objectStride alignment) := by
  rw [alignTo?_eq power, if_pos (litBlockSize_add_lt power)]
  rfl

end

/-! ## Capacities -/

theorem isLeast_powerOfTwoFrom (n : Nat) :
    IsLeast {c : Nat | c.isPowerOfTwo ∧ n ≤ c} (powerOfTwoFrom n) := by
  unfold powerOfTwoFrom
  by_cases small : n ≤ 1
  · rw [if_pos small]
    exact ⟨⟨Nat.isPowerOfTwo_one, small⟩, fun c hc => Nat.pos_of_isPowerOfTwo hc.1⟩
  · rw [if_neg small, Nat.one_shiftLeft]
    have below : n - 1 < 2 ^ ((n - 1).log2 + 1) := Nat.lt_log2_self
    refine ⟨⟨⟨_, rfl⟩, by omega⟩, ?_⟩
    rintro c ⟨⟨k, rfl⟩, reaches⟩
    exact Nat.pow_le_pow_right (by decide) ((Nat.log2_lt (by omega)).2 (by omega))

/-- A buffer has room for the least power of two of blocks that is at least eight and enough for its
objects. -/
theorem isLeast_objectCapacity (required : Nat) :
    IsLeast {c : Nat | c.isPowerOfTwo ∧ max 8 required ≤ c} (objectCapacity required) := by
  obtain ⟨⟨power, reaches⟩, least⟩ := isLeast_powerOfTwoFrom required
  refine ⟨⟨?_, max_le_max_left 8 reaches⟩, fun c ⟨hc, room⟩ => ?_⟩
  · rcases max_choice 8 (powerOfTwoFrom required) with eight | other
    · exact ⟨3, eight⟩
    · rw [objectCapacity, other]
      exact power
  · exact max_le ((le_max_left _ _).trans room) (least ⟨hc, (le_max_right _ _).trans room⟩)

theorem le_objectCapacity (required : Nat) : required ≤ objectCapacity required :=
  (le_max_right _ _).trans (isLeast_objectCapacity required).1.2

end LitRenderer

/-! ## Staged bytes -/

/-- The bytes have the block of each object a stride behind the one before it, and zeros everywhere
else. -/
structure HoldsBlocks (bytes : List UInt8) (p : Projector Float32)
    (objects : List (Lighting.Object Float32)) (stride : Nat) : Prop where
  length_eq : bytes.length = stride * objects.length
  block : ∀ i (h : i < objects.length), (bytes.drop (i * stride)).take litBlockSize =
    (litBlock p objects[i]).bytes
  zero : ∀ j (h : j < bytes.length),
    (∀ i < objects.length, ¬ (i * stride ≤ j ∧ j < i * stride + litBlockSize)) → bytes[j] = 0

/-- Copies bytes over others from a place on, if there is room for them. -/
def copyTo? (place : Nat) (source target : List UInt8) : Option (List UInt8) :=
  if place + source.length ≤ target.length then
    some (target.take place ++ source ++ target.drop (place + source.length))
  else none

/-- Copies the block of each object into zeros, at the place that its index gives. -/
def stage? (p : Projector Float32) (objects : List (Lighting.Object Float32)) (stride : Nat) :
    Option (List UInt8) :=
  objects.zipIdx.foldlM (fun staged (o, i) => copyTo? (i * stride) (litBlock p o).bytes staged)
    (List.replicate (stride * objects.length) 0)

section Staging

variable (p : Projector Float32) (objects : List (Lighting.Object Float32)) {stride : Nat}

theorem objectBytes_append (later : List (Lighting.Object Float32)) :
    objectBytes p (objects ++ later) stride = objectBytes p objects stride ++
      objectBytes p later stride :=
  List.flatMap_append

theorem objectBytes_singleton (o : Lighting.Object Float32) :
    objectBytes p [o] stride = (litBlock p o).bytes ++
      List.replicate (stride - litBlockSize) 0 := by
  rw [← LitUniform.litBlock_length p o]
  exact List.append_nil _

variable (room : litBlockSize ≤ stride)
include room

theorem length_objectBytes : (objectBytes p objects stride).length = stride * objects.length := by
  induction objects with
  | nil => rfl
  | cons o objects ih =>
    rw [← List.singleton_append, objectBytes_append, objectBytes_singleton, List.length_append,
      List.length_append,
      List.length_append, ih, LitUniform.litBlock_length, List.length_replicate,
      Nat.add_sub_cancel' room, Nat.mul_add]
    simp

/-- From the place of an object on, there is its block, zeros up to the stride, and what is staged
of the others. -/
theorem drop_objectBytes {i : Nat} (h : i < objects.length) :
    (objectBytes p objects stride).drop (i * stride) =
      (litBlock p objects[i]).bytes ++
        (List.replicate (stride - litBlockSize) 0 ++
          objectBytes p (objects.drop (i + 1)) stride) := by
  have before : (objectBytes p (objects.take i) stride).length = i * stride := by
    rw [length_objectBytes p _ room, List.length_take_of_le h.le, Nat.mul_comm]
  calc (objectBytes p objects stride).drop (i * stride)
    _ = (objectBytes p (objects.take i) stride ++
          objectBytes p (objects.drop i) stride).drop (i * stride) := by
      rw [← objectBytes_append, List.take_append_drop]
    _ = objectBytes p ([objects[i]] ++ objects.drop (i + 1)) stride := by
      rw [List.drop_left' before, List.drop_eq_getElem_cons h, List.singleton_append]
    _ = _ := by rw [objectBytes_append, objectBytes_singleton, List.append_assoc]

theorem holdsBlocks_objectBytes : HoldsBlocks (objectBytes p objects stride) p objects stride where
  length_eq := length_objectBytes p objects room
  block i h := by
    rw [drop_objectBytes p objects room h]
    exact List.take_left' (LitUniform.litBlock_length p _)
  zero j h between := by
    rw [length_objectBytes p objects room] at h
    have place : j / stride < objects.length := Nat.div_lt_of_lt_mul h
    have division : j / stride * stride + j % stride = j := Nat.div_add_mod' j stride
    have remainder : j % stride < stride := Nat.mod_lt j (by unfold litBlockSize at room; omega)
    have behind : litBlockSize ≤ j % stride := by
      have outside := between (j / stride) place
      omega
    have read : ((objectBytes p objects stride).drop (j / stride * stride))[j % stride]? =
        some 0 := by
      rw [drop_objectBytes p objects room place,
        List.getElem?_append_right (by rwa [LitUniform.litBlock_length]),
        LitUniform.litBlock_length, List.getElem?_append_left (by simp; omega),
        List.getElem?_replicate]
      simp; omega
    rw [List.getElem?_drop, division] at read
    exact (List.getElem_eq_iff _).2 read

/-- One round of staging: the zeros at the place of the next object give way to its block. -/
theorem copyTo?_eq (o : Lighting.Object Float32) (later : Nat) :
    copyTo? (objects.length * stride) (litBlock p o).bytes
        (objectBytes p objects stride ++ List.replicate (stride * (later + 1)) 0) =
      some (objectBytes p (objects ++ [o]) stride ++ List.replicate (stride * later) 0) := by
  have done : (objectBytes p objects stride).length = objects.length * stride := by
    rw [length_objectBytes p objects room, Nat.mul_comm]
  have enough : litBlockSize ≤ stride * (later + 1) :=
    room.trans (Nat.le_mul_of_pos_right _ (Nat.succ_pos _))
  have left : stride * (later + 1) - litBlockSize = (stride - litBlockSize) + stride * later := by
    rw [Nat.mul_succ]
    omega
  rw [copyTo?, if_pos, List.take_left' done, ← done, List.drop_length_add_append,
    LitUniform.litBlock_length,
    List.drop_replicate, left, List.replicate_add, objectBytes_append, objectBytes_singleton]
  · simp only [List.append_assoc]
  · rw [List.length_append, done, LitUniform.litBlock_length, List.length_replicate]
    omega

theorem stage?_from (done : List (Lighting.Object Float32)) :
    (objects.zipIdx done.length).foldlM
        (fun staged (o, i) => copyTo? (i * stride) (litBlock p o).bytes staged)
        (objectBytes p done stride ++ List.replicate (stride * objects.length) 0) =
      some (objectBytes p (done ++ objects) stride) := by
  induction objects generalizing done with
  | nil => simp
  | cons o rest ih =>
    have next := ih (done ++ [o])
    rw [List.length_append, List.append_assoc] at next
    rw [List.zipIdx_cons, List.foldlM_cons, List.length_cons]
    simp only [copyTo?_eq p done room o rest.length]
    exact next

/-- No copy leaves the staged bytes, and together they stage the blocks of all objects. -/
theorem stage?_eq : stage? p objects stride = some (objectBytes p objects stride) :=
  stage?_from p objects room []

end Staging

/-! ## The shared buffer -/

/-- The buffer has a place for every block that it has room for, on a device with the given
alignment. -/
structure Gpu.Buffer.FitsBlocks (b : Buffer) (stride capacity : Nat) (alignment : UInt64) :
    Prop where
  stride_eq : stride = LitRenderer.objectStride alignment
  size_eq : b.size = stride * capacity

/-- The block that a draw finds in the buffer that it binds, from its offset on. -/
def Draw.blockIn (d : Draw) (contents : List UInt8) : List UInt8 :=
  (contents.drop (d.bound.offsets.headD 0).toNat).take litBlockSize

namespace LitRenderer

/-- The target of a drawing. -/
def Op.target? : Op → Option Target
  | .setTexture _ => none
  | .render target _ _ => some target

/-- The buffer that is kept fits a device. -/
def FitsBlocks (r : LitRenderer) (alignment : UInt64) : Prop :=
  ∀ b, r.uniforms = some b → b.FitsBlocks r.stride r.capacity alignment

/-- The buffer that a drawing uses has room for its objects, and fits the device if the one that was
kept did. -/
theorem Equipment.Suits.fits {e : Equipment} {r : LitRenderer} {target : Target} {required : Nat}
    (suits : e.Suits r target required) (kept : r.FitsBlocks target.alignment) :
    e.uniforms.FitsBlocks e.stride e.capacity target.alignment ∧ required ≤ e.capacity := by
  have objects := suits.objects
  by_cases small : r.capacity < required
  · rw [if_pos small] at objects
    refine ⟨⟨objects.stride_eq, objects.size_eq⟩, ?_⟩
    rw [objects.capacity_eq]
    exact le_objectCapacity required
  · rw [if_neg small] at objects
    have fits := kept e.uniforms objects.uniforms_eq
    rw [objects.stride_eq, objects.capacity_eq] at fits
    exact ⟨fits, objects.capacity_eq ▸ not_lt.1 small⟩

/-- The buffer that is kept fits the device, if the history has been on that device. -/
def FitsAfter (alignment : UInt64) (history : List Op) (r : LitRenderer) : Prop :=
  (∀ t ∈ history.filterMap Op.target?, t.alignment = alignment) → r.FitsBlocks alignment

theorem FitsAfter.step {alignment : UInt64} {history : List Op} {r r' : LitRenderer} {op : Op}
    {cs : List Call} (holds : FitsAfter alignment history r) (steps : r.Steps op r' cs) :
    FitsAfter alignment (history ++ [op]) r' := by
  intro same
  have earlier := holds fun t ht =>
    same t (by rw [List.filterMap_append]; exact List.mem_append_left _ ht)
  cases steps with
  | setTexture texture => exact earlier
  | idle nothing => exact earlier
  | @drawing target p objects e some_objects some_mesh suits =>
    have here : target.alignment = alignment := same target (by simp [Op.target?])
    subst here
    rintro b ⟨⟩
    exact (suits.fits earlier).1

/-- Once the bytes are written to the start of the shared buffer, whatever it held, the draw of each
object finds its block there: its offset is the place of the block, and the block ends inside the
buffer. -/
structure Equipment.ReadsBlocks (e : Equipment) (bytes : List UInt8) (p : Projector Float32)
    (objects : List (Lighting.Object Float32)) : Prop where
  offset_eq : ∀ i < objects.length, (e.draw i).bound.offsets.map UInt32.toNat = [i * e.stride]
  inside : ∀ i < objects.length, i * e.stride + litBlockSize ≤ e.uniforms.size
  block : ∀ old : List UInt8, old.length = e.uniforms.size → ∃ contents,
    copyTo? 0 bytes old = some contents ∧
    ∀ i (h : i < objects.length), (e.draw i).blockIn contents = (litBlock p objects[i]).bytes

theorem Equipment.readsBlocks (e : Equipment) {bytes : List UInt8} {p : Projector Float32}
    {objects : List (Lighting.Object Float32)} (holds : HoldsBlocks bytes p objects e.stride)
    (room : litBlockSize ≤ e.stride) (fits : bytes.length ≤ e.uniforms.size)
    (short : e.stride * objects.length ≤ 2 ^ 32) : e.ReadsBlocks bytes p objects := by
  have place {i : Nat} (h : i < objects.length) : i * e.stride + litBlockSize ≤ bytes.length := by
    have next : (i + 1) * e.stride ≤ objects.length * e.stride := Nat.mul_le_mul_right _ h
    rw [holds.length_eq, Nat.mul_comm e.stride]
    rw [Nat.add_mul] at next
    omega
  have offset {i : Nat} (h : i < objects.length) :
      (UInt32.ofNat (i * e.stride)).toNat = i * e.stride := by
    have inside := place h
    have length := holds.length_eq
    have block : litBlockSize = 224 := rfl
    exact UInt32.toNat_ofNat_of_lt' (by rw [UInt32.size]; omega)
  refine ⟨fun i h => congrArg (fun w => [w]) (offset h), fun i h => (place h).trans fits,
    fun old length => ?_⟩
  refine ⟨bytes ++ old.drop bytes.length, ?_, fun i h => ?_⟩
  · rw [copyTo?, if_pos (by omega), Nat.zero_add]
    rfl
  · have inside := place h
    change ((bytes ++ _).drop (UInt32.ofNat (i * e.stride)).toNat).take litBlockSize = _
    rw [offset h, List.drop_append_of_le_length (by omega),
      List.take_append_of_le_length (by rw [List.length_drop]; omega)]
    exact holds.block i h

/-- Every draw reads the block of its own object. After any history on a device whose alignment is a
power of two, a buffer that is kept has its blocks at multiples of the alignment, far enough apart,
and rounding up to the alignment did not leave the words. A drawing has room for its objects: the
copies that stage their blocks, and the one write of the staged bytes, stay inside. The draws take
the places of the blocks as offsets, and these offsets are exact as long as they fit a 32-bit
word. -/
theorem draws_read_own_blocks (mesh : Mesh Float32) (texture : Texture) (history : List Op)
    (device : Recorder) (target : Target) (p : Projector Float32)
    (objects : List (Lighting.Object Float32)) (power : target.alignment.toNat.isPowerOfTwo)
    (same : ∀ t ∈ history.filterMap Op.target?, t.alignment = target.alignment) :
    let before := ((ofMesh mesh texture).perform history).run device
    let after := (before.1.render target p objects).run before.2
    (∀ b, after.1.uniforms = some b →
      IsLeast {s | target.alignment.toNat ∣ s ∧ litBlockSize ≤ s} after.1.stride ∧
      (alignTo? (.ofNat litBlockSize) target.alignment).map UInt64.toNat = some after.1.stride ∧
      b.size = after.1.stride * after.1.capacity) ∧
    if objects = [] ∨ mesh.indices = [] then after = before
    else ∃ (e : Equipment) (calls : List Call) (bytes : List UInt8),
      after.1 = before.1.equip e ∧ after.2.calls = before.2.calls ++ calls.toArray ∧
      objects.length ≤ e.capacity ∧
      stage? p objects e.stride = some bytes ∧ HoldsBlocks bytes p objects e.stride ∧
      bytes.length ≤ e.uniforms.size ∧
      calls.filterMap Call.bufferWrite? = [(e.uniforms, 0, bytes)] ∧
      draws calls = (List.range objects.length).map e.draw ∧
      e.group.Binds e.pipeline.layout e.uniforms e.image e.sampler ∧
      (e.stride * objects.length ≤ 2 ^ 32 → e.ReadsBlocks bytes p objects) := by
  intro before after
  obtain ⟨earlier, calls, -, ha, -, -, sound, -, kept, drawn⟩ :=
    render_after_perform (P := fun history r _ => FitsAfter target.alignment history r)
      (fun _ b hb => by cases hb) FitsAfter.step before after rfl rfl
  have layout {b : Buffer} {stride capacity : Nat}
      (fits : b.FitsBlocks stride capacity target.alignment) :
      IsLeast {s | target.alignment.toNat ∣ s ∧ litBlockSize ≤ s} stride ∧
      (alignTo? (.ofNat litBlockSize) target.alignment).map UInt64.toNat = some stride ∧
      b.size = stride * capacity := by
    rw [fits.size_eq, fits.stride_eq]
    exact ⟨isLeast_objectStride power, alignTo?_litBlockSize power, rfl⟩
  by_cases nothing : objects = [] ∨ mesh.indices = []
  · rw [if_pos nothing] at drawn ⊢
    rw [drawn]
    exact ⟨fun b hb => layout (kept same b hb), rfl⟩
  · rw [if_neg nothing] at drawn ⊢
    obtain ⟨e, suits, equipped, rfl⟩ := drawn
    obtain ⟨fits, room⟩ := suits.fits (kept same)
    obtain ⟨stride, -, size⟩ := layout fits
    have wide := stride.1.2
    have holds := holdsBlocks_objectBytes p objects wide
    have written : (objectBytes p objects e.stride).length ≤ e.uniforms.size := by
      rw [holds.length_eq, size]
      exact Nat.mul_le_mul_left _ room
    refine ⟨?_, e, _, objectBytes p objects e.stride, equipped, ha, room,
      stage?_eq p objects wide, holds, written,
      e.filterMap_bufferWrite_drawing _ _ target p objects,
      e.draws_drawing _ _ target p objects,
      ((equipped ▸ sound).upToDate suits.attachments_eq).group_binds,
      e.readsBlocks holds wide written⟩
    rw [equipped]
    rintro b ⟨⟩
    exact layout fits

/-- A buffer that was made for twenty objects serves two of them as well: the second draw reads at
byte 256. -/
theorem draws_read_own_blocks_fewer :
    let target : Target := {
      attachments := ⟨.bgra8UnormSrgb, .depth32Float⟩
      viewport := ⟨800, 600⟩
      alignment := 256
      encoder := 0
      surface := 1
      depth := ⟨2, depthTexture .depth32Float ⟨800, 600⟩⟩ }
    let objects : List (Lighting.Object Float32) :=
      [.standard, { Lighting.Object.standard with normals := .vertex }]
    let before := ((ofMesh (.cube 1 ⟨1, 1, 1, 1⟩) .white).perform
      [.render target .standard (List.replicate 20 .standard), .setTexture .white]).run .initial
    let after := (before.1.render target .standard objects).run before.2
    ∃ (e : Equipment) (bytes : List UInt8), after.1 = before.1.equip e ∧ e.stride = 256 ∧
      bytes.length = 512 ∧ (e.draw 1).bound.offsets.map UInt32.toNat = [256] ∧
      e.ReadsBlocks bytes .standard objects := by
  intro target objects before after
  obtain ⟨layout, drawn⟩ := draws_read_own_blocks (.cube 1 ⟨1, 1, 1, 1⟩) .white
    [.render target .standard (List.replicate 20 .standard),
      .setTexture .white] .initial target .standard objects
    ⟨8, rfl⟩ (by simp [Op.target?])
  have some_indices : (Mesh.cube (1 : Float32) ⟨1, 1, 1, 1⟩).indices ≠ [] := List.cons_ne_nil _ _
  rw [if_neg (by simp [objects, some_indices])] at drawn
  obtain ⟨e, calls, bytes, ha, -, -, -, holds, -, -, -, -, reads⟩ := drawn
  have stride : e.stride = 256 := by
    have least := (layout e.uniforms (by rw [ha]; rfl)).1
    rw [ha] at least
    refine least.unique ⟨⟨dvd_rfl, by decide⟩, ?_⟩
    rintro s ⟨aligned, wide⟩
    exact Nat.le_of_dvd (by unfold litBlockSize at wide; omega) aligned
  have length : bytes.length = 512 := by rw [holds.length_eq, stride]; rfl
  have reads := reads (by rw [stride]; decide)
  refine ⟨e, bytes, ha, stride, length, ?_, reads⟩
  rw [reads.offset_eq 1 (by decide), stride]

end LitRenderer

end GroundPlane
