import Mathlib
import GroundPlane.Draw.Lit
import GroundPlane.Proofs.Recording

/-!
# The objects that a lit renderer draws with

A renderer keeps device objects from call to call, each in a field of its own, and drops its bind
group whenever something that it was made from is replaced. `Sound` is the invariant behind this:
what is kept has been made, and the fields belong together. Each of the six `ensure` operations
preserves it (`Ensures`). After them nothing is missing (`prepare_ensures`), so that no drawing is
left out, and after any history of calls every draw reads current objects (`render_draws_current`).
-/

namespace GroundPlane

open Gpu Recording

/-- The buffers hold the vertices and the indices of a mesh. -/
structure Mesh.HeldBy (mesh : Mesh Float32) (vertices indices : Buffer) (count : UInt32)
    (calls : List Call) : Prop where
  vertices_made : .createBuffer vertices ∈ calls
  vertices_contents : vertices.contents = some (mesh.vertices.flatMap Vertex.bytes)
  indices_made : .createBuffer indices ∈ calls
  indices_contents : indices.contents = some (mesh.indices.flatMap indexBytes)
  count_eq : count = .ofNat mesh.indices.length

theorem Mesh.HeldBy.append {mesh : Mesh Float32} {vertices indices : Buffer} {count : UInt32}
    {calls : List Call} (h : mesh.HeldBy vertices indices count calls) (more : List Call) :
    mesh.HeldBy vertices indices count (calls ++ more) where
  vertices_made := List.mem_append_left more h.vertices_made
  vertices_contents := h.vertices_contents
  indices_made := List.mem_append_left more h.indices_made
  indices_contents := h.indices_contents
  count_eq := h.count_eq

/-- The image has been made with the size of a texture, and the texels of the texture were written
to it, after every other upload. -/
structure Gpu.Image.Shows (i : Image) (t : Texture) (calls : List Call) : Prop where
  made : .createImage i ∈ calls
  format_eq : i.format = .rgba8UnormSrgb
  size_eq : i.size = t.extent
  written : (calls.filterMap Call.upload?).getLast? = some (i, t.upload)

theorem Gpu.Image.Shows.append {i : Image} {t : Texture} {calls more : List Call}
    (h : i.Shows t calls)
    (silent : more.filterMap Call.upload? = []) : i.Shows t (calls ++ more) where
  made := List.mem_append_left more h.made
  format_eq := h.format_eq
  size_eq := h.size_eq
  written := by rw [List.filterMap_append, silent, List.append_nil, h.written]

/-- The group was made for a layout, from the given resources. -/
structure Gpu.BindGroup.Binds (g : BindGroup) (layout : GroupLayout) (uniforms : Buffer)
    (image : Image) (sampler : Sampler) : Prop where
  layout_eq : g.layout = layout
  bindings_eq : g.bindings = [.buffer uniforms, .image image, .sampler sampler]

namespace LitRenderer

/-- Everything that is kept has been made by the calls so far, and belongs together: the pipeline is
for the attachments that are noted and for the layout, the buffers hold the mesh, an image that is
not dirty shows the texture, there is no room without a buffer, and a bind group joins the objects
that are kept beside it. -/
structure Sound (r : LitRenderer) (calls : List Call) : Prop where
  pipeline : ∀ p, r.pipeline = some p → .createPipeline p ∈ calls ∧ .createLayout p.layout ∈ calls ∧
    r.key = some p.attachments ∧ r.layout = some p.layout
  mesh : ∀ v i, r.vertices = some v → r.indices = some i → r.mesh.HeldBy v i r.indexCount calls
  sampler : ∀ s, r.sampler = some s → .createSampler s ∈ calls
  image : ∀ i, r.image = some i → ∃ t, i.Shows t calls ∧ (r.dirty = false → t = r.texture)
  uniforms : ∀ b, r.uniforms = some b → .createBuffer b ∈ calls
  capacity : r.uniforms = none → r.capacity = 0
  group : ∀ g, r.group = some g → .createBindGroup g ∈ calls ∧
    ∃ l u i s, r.layout = some l ∧ r.uniforms = some u ∧ r.image = some i ∧ r.sampler = some s ∧
      g.Binds l u i s

theorem sound_ofMesh (mesh : Mesh Float32) (texture : Texture) (calls : List Call) :
    (ofMesh mesh texture).Sound calls where
  pipeline _ kept := by cases kept
  mesh _ _ kept _ := by cases kept
  sampler _ kept := by cases kept
  image _ kept := by cases kept
  uniforms _ kept := by cases kept
  capacity _ := rfl
  group _ kept := by cases kept

/-- Calls that upload nothing change nothing for what is kept. -/
theorem Sound.append {r : LitRenderer} {calls : List Call} (h : r.Sound calls) (more : List Call)
    (silent : more.filterMap Call.upload? = []) : r.Sound (calls ++ more) where
  pipeline p hp :=
    have ⟨made, layout, fits⟩ := h.pipeline p hp
    ⟨List.mem_append_left more made, List.mem_append_left more layout, fits⟩
  mesh v i hv hi := (h.mesh v i hv hi).append more
  sampler s hs := List.mem_append_left more (h.sampler s hs)
  image i hi :=
    have ⟨t, shows, clean⟩ := h.image i hi
    ⟨t, shows.append silent, clean⟩
  uniforms b hb := List.mem_append_left more (h.uniforms b hb)
  capacity := h.capacity
  group g hg :=
    have ⟨made, binds⟩ := h.group g hg
    ⟨List.mem_append_left more made, binds⟩

/-- A new texture makes the image dirty, and changes nothing else that is kept. -/
theorem Sound.setTexture {r : LitRenderer} {calls : List Call} (h : r.Sound calls)
    (texture : Texture) : (r.setTexture texture).Sound calls where
  pipeline := h.pipeline
  mesh := h.mesh
  sampler := h.sampler
  image i hi :=
    have ⟨t, shows, _⟩ := h.image i hi
    ⟨t, shows, nofun⟩
  uniforms := h.uniforms
  capacity := h.capacity
  group := h.group

/-! ## The objects that are ensured -/

/-- The next drawing makes the buffers of the mesh. -/
def lacksMesh (r : LitRenderer) : Bool :=
  !decide (r.vertices.isSome ∧ r.indices.isSome)

/-- The next drawing uploads the texture. -/
def needsUpload (r : LitRenderer) : Bool :=
  r.dirty || r.image.isNone

section Ensured

variable {r : LitRenderer} {calls : List Call} (sound : r.Sound calls) (n : Nat)

include sound

theorem ensurePipeline_ensures (attachments : Attachments) :
    ∃ p g k, p.attachments = attachments ∧
      g.isNone = (r.group.isNone || lacksPipeline r.key r.pipeline attachments) ∧
      Ensures Sound calls (r.ensurePipeline attachments) n
        { r with
          key := some p.attachments, pipeline := some p, layout := some p.layout, group := g } k
        (callsIf (lacksPipeline r.key r.pipeline attachments)
          [.createLayout p.layout, .createPipeline p]) := by
  by_cases kept : r.key = some attachments ∧ r.pipeline.isSome
  · obtain ⟨p, hp⟩ := Option.isSome_iff_exists.1 kept.2
    obtain ⟨-, -, key, layout⟩ := sound.pipeline p hp
    have same : { r with
        key := some p.attachments, pipeline := some p, layout := some p.layout
        group := r.group } = r := by rw [← key, ← hp, ← layout]
    rw [lacksPipeline_of_kept kept, Bool.or_false]
    refine ⟨p, r.group, n, Option.some.inj (key.symm.trans kept.1), rfl, ?_⟩
    rw [same]
    exact .kept (by rw [ensurePipeline, if_pos kept]) sound n
  · obtain ⟨l, k, layout⟩ := createLayout_creates (label "lit bgl") n
    obtain ⟨p, k', rfl, rfl, pipeline⟩ :=
      createPipeline_creates (label "lit pipeline") l attachments k
    rw [lacksPipeline_of_not_kept kept, Bool.or_true]
    refine ⟨p, none, k', rfl, rfl, ?_, ?_⟩
    · rw [ensurePipeline, if_neg kept]
      exact layout.bind (pipeline.bind (creates_pure _ _))
    · have old := sound.append [.createLayout p.layout, .createPipeline p] rfl
      refine ⟨?_, old.mesh, old.sampler, old.image, old.uniforms, old.capacity, nofun⟩
      rintro p ⟨⟩
      exact ⟨by simp [callsIf], by simp [callsIf], rfl, rfl⟩

theorem ensureMesh_ensures :
    ∃ v i c k, (r.lacksMesh → v.label = label "lit vbo" ∧ i.label = label "lit ibo") ∧
      Ensures Sound calls r.ensureMesh n
        { r with vertices := some v, indices := some i, indexCount := c } k
        (callsIf r.lacksMesh [.createBuffer v, .createBuffer i]) := by
  by_cases kept : r.vertices.isSome ∧ r.indices.isSome
  · obtain ⟨v, hv⟩ := Option.isSome_iff_exists.1 kept.1
    obtain ⟨i, hi⟩ := Option.isSome_iff_exists.1 kept.2
    have has : r.lacksMesh = false := by
      rw [lacksMesh, decide_eq_true kept]
      rfl
    have same :
        { r with vertices := some v, indices := some i, indexCount := r.indexCount } = r := by
      rw [← hv, ← hi]
    rw [has]
    refine ⟨v, i, r.indexCount, n, nofun, ?_⟩
    rw [same]
    exact .kept (by rw [ensureMesh, if_pos kept]) sound n
  · have lacks : r.lacksMesh := by
      rw [lacksMesh, decide_eq_false kept]
      rfl
    obtain ⟨v, l, vlabel, hv, vertices⟩ :=
      createBufferWith_creates (label "lit vbo") (r.mesh.vertices.flatMap Vertex.bytes) n
    obtain ⟨i, k, ilabel, hi, indices⟩ :=
      createBufferWith_creates (label "lit ibo") (r.mesh.indices.flatMap indexBytes) l
    rw [lacks]
    refine ⟨v, i, .ofNat r.mesh.indices.length, k, fun _ => ⟨vlabel, ilabel⟩, ?_, ?_⟩
    · rw [ensureMesh, if_neg kept]
      exact vertices.bind (indices.bind (creates_pure _ _))
    · have old := sound.append [.createBuffer v, .createBuffer i] rfl
      refine ⟨old.pipeline, ?_, old.sampler, old.image, old.uniforms, old.capacity, old.group⟩
      rintro v i ⟨⟩ ⟨⟩
      exact ⟨by simp [callsIf], hv, by simp [callsIf], hi, rfl⟩

theorem ensureSampler_ensures :
    ∃ s k, Ensures Sound calls r.ensureSampler n { r with sampler := some s } k
      (callsIf r.sampler.isNone [.createSampler s]) := by
  cases h : r.sampler with
  | some s =>
    have same : { r with sampler := some s } = r := by rw [← h]
    refine ⟨s, n, ?_⟩
    rw [same]
    exact .kept (by rw [ensureSampler, h]; rfl) sound n
  | none =>
    obtain ⟨s, k, creates⟩ := createSampler_creates n
    refine ⟨s, k, ?_, ?_⟩
    · rw [ensureSampler, h]
      exact creates.bind (creates_pure _ _)
    · have old := sound.append [.createSampler s] rfl
      refine ⟨old.pipeline, old.mesh, ?_, old.image, old.uniforms, old.capacity, ?_⟩
      · rintro s ⟨⟩
        simp [callsIf]
      · -- no group is kept, since it would join the sampler that has only now been made
        intro g hg
        obtain ⟨-, l, u, i, s, -, -, -, hs, -⟩ := sound.group g hg
        rw [h] at hs
        cases hs

theorem ensureImage_ensures :
    ∃ i g k, g.isNone = (r.group.isNone || r.needsUpload) ∧
      Ensures Sound calls r.ensureImage n { r with image := some i, dirty := false, group := g } k
        (callsIf r.needsUpload [.createImage i, .writeImage i r.texture.upload]) := by
  by_cases kept : !r.dirty ∧ r.image.isSome
  · have clean : r.dirty = false := by simpa using kept.1
    obtain ⟨i, hi⟩ := Option.isSome_iff_exists.1 kept.2
    have has : r.needsUpload = false := by simp [needsUpload, clean, hi]
    have same : { r with image := some i, dirty := false, group := r.group } = r := by
      rw [← hi, ← clean]
    refine ⟨i, r.group, n, by rw [has, Bool.or_false], ?_⟩
    rw [has, same]
    exact .kept (by rw [ensureImage, if_pos kept]) sound n
  · have due : r.needsUpload := by
      cases hi : r.image <;> simp_all [needsUpload]
    obtain ⟨i, k, format, size, creates⟩ :=
      uploadImage_creates (label "lit texture") .rgba8UnormSrgb r.texture n
    rw [due, Bool.or_true]
    refine ⟨i, none, k, rfl, ?_, ?_⟩
    · rw [ensureImage, if_neg kept]
      exact creates.bind (creates_pure _ _)
    · have there {c : Call} (made : c ∈ calls) :
          c ∈ calls ++ [.createImage i, .writeImage i r.texture.upload] :=
            List.mem_append_left _ made
      refine ⟨fun p hp => ?_, fun v j hv hj => (sound.mesh v j hv hj).append _,
        fun s hs => there (sound.sampler s hs), ?_, fun b hb => there (sound.uniforms b hb),
        sound.capacity, nofun⟩
      · obtain ⟨made, layout, fits⟩ := sound.pipeline p hp
        exact ⟨there made, there layout, fits⟩
      · rintro i ⟨⟩
        refine ⟨r.texture, ⟨by simp [callsIf], format, size, ?_⟩, fun _ => rfl⟩
        rw [List.filterMap_append]
        exact List.getLast?_concat

theorem ensureObjects_ensures (alignment : UInt64) {required : Nat} (positive : 0 < required) :
    ∃ u stride capacity g k,
      (if r.capacity < required then
        stride = objectStride alignment ∧ capacity = objectCapacity required ∧
          u.size = stride * capacity ∧ u.label = label "lit object ubo"
      else r.uniforms = some u ∧ r.stride = stride ∧ r.capacity = capacity) ∧
      g.isNone = (r.group.isNone || decide (r.capacity < required)) ∧
      Ensures Sound calls (r.ensureObjects alignment required) n
        { r with uniforms := some u, stride, capacity, group := g } k
        (callsIf (r.capacity < required) [.createBuffer u]) := by
  by_cases small : r.capacity < required
  · have outgrown : ¬ (required ≤ r.capacity ∧ r.uniforms.isSome) := fun kept => by omega
    obtain ⟨u, k, name, size, creates⟩ := createBuffer_creates (label "lit object ubo")
      (objectStride alignment * objectCapacity required) n
    rw [decide_eq_true small, Bool.or_true]
    refine ⟨u, objectStride alignment, objectCapacity required, none, k, ?_, rfl, ?_, ?_⟩
    · rw [if_pos small]
      exact ⟨rfl, rfl, size, name⟩
    · rw [ensureObjects, if_neg outgrown]
      exact creates.bind (creates_pure _ _)
    · have old := sound.append [.createBuffer u] rfl
      refine ⟨old.pipeline, old.mesh, old.sampler, old.image, ?_, nofun, nofun⟩
      rintro u ⟨⟩
      simp [callsIf]
  · -- there is a buffer, since there is room
    obtain ⟨u, hu⟩ : ∃ u, r.uniforms = some u := by
      cases hu : r.uniforms with
      | none => exact absurd (sound.capacity hu ▸ positive) small
      | some u => exact ⟨u, rfl⟩
    have kept : required ≤ r.capacity ∧ r.uniforms.isSome := ⟨not_lt.1 small, by rw [hu]; rfl⟩
    have same : { r with
        uniforms := some u, stride := r.stride, capacity := r.capacity, group := r.group } = r := by
      rw [← hu]
    refine ⟨u, r.stride, r.capacity, r.group, n, ?_,
      by rw [decide_eq_false small, Bool.or_false], ?_⟩
    · rw [if_neg small]
      exact ⟨hu, rfl, rfl⟩
    · rw [decide_eq_false small, same]
      exact .kept (by rw [ensureObjects, if_pos kept]) sound n

theorem ensureGroup_ensures {l : GroupLayout} {u : Buffer} {i : Image} {s : Sampler}
    (hl : r.layout = some l) (hu : r.uniforms = some u) (hi : r.image = some i)
    (hs : r.sampler = some s) :
    ∃ g k, Ensures Sound calls r.ensureGroup n { r with group := some g } k
      (callsIf r.group.isNone [.createBindGroup g]) := by
  cases h : r.group with
  | some g =>
    have same : { r with group := some g } = r := by rw [← h]
    refine ⟨g, n, ?_⟩
    rw [same]
    exact .kept (by rw [ensureGroup, h]; rfl) sound n
  | none =>
    obtain ⟨g, k, layout, bindings, creates⟩ := createBindGroup_creates (label "lit bind group") l
      [.buffer u, .image i, .sampler s] n
    refine ⟨g, k, ?_, ?_⟩
    · rw [ensureGroup, h, hl, hu, hi, hs]
      exact creates.bind (creates_pure _ _)
    · have old := sound.append [.createBindGroup g] rfl
      refine ⟨old.pipeline, old.mesh, old.sampler, old.image, old.uniforms, old.capacity, ?_⟩
      rintro g ⟨⟩
      exact ⟨by simp [callsIf], l, u, i, s, hl, hu, hi, hs, layout, bindings⟩

end Ensured

/-- What a drawing has to make. -/
structure Missing where
  pipeline : Bool
  mesh : Bool
  sampler : Bool
  image : Bool
  objects : Bool
  group : Bool
deriving DecidableEq

/-- What a drawing of so many objects has to make. The bind group is made along with whatever it
joins. -/
def missing (r : LitRenderer) (attachments : Attachments) (required : Nat) : Missing where
  pipeline := lacksPipeline r.key r.pipeline attachments
  mesh := r.lacksMesh
  sampler := r.sampler.isNone
  image := r.needsUpload
  objects := r.capacity < required
  group := r.group.isNone || lacksPipeline r.key r.pipeline attachments || r.needsUpload ||
    r.capacity < required

/-! ## Drawing -/

/-- The objects that a drawing uses. -/
structure Equipment where
  pipeline : Pipeline
  group : BindGroup
  uniforms : Buffer
  capacity : Nat
  stride : Nat
  vertices : Buffer
  indices : Buffer
  indexCount : UInt32
  image : Image
  sampler : Sampler

/-- The renderer that keeps the given objects, with its texture uploaded. -/
def equip (r : LitRenderer) (e : Equipment) : LitRenderer :=
  { r with
    dirty := false
    key := some e.pipeline.attachments
    pipeline := some e.pipeline
    layout := some e.pipeline.layout
    group := some e.group
    uniforms := some e.uniforms
    capacity := e.capacity
    stride := e.stride
    vertices := some e.vertices
    indices := some e.indices
    indexCount := e.indexCount
    image := some e.image
    sampler := some e.sampler }

namespace Equipment

/-- The calls that make what is missing for a texture. -/
def making (e : Equipment) (texture : Texture) (m : Missing) : List Call :=
  List.flatten [
    callsIf m.pipeline [.createLayout e.pipeline.layout, .createPipeline e.pipeline],
    callsIf m.mesh [.createBuffer e.vertices, .createBuffer e.indices],
    callsIf m.sampler [.createSampler e.sampler],
    callsIf m.image [.createImage e.image, .writeImage e.image texture.upload],
    callsIf m.objects [.createBuffer e.uniforms],
    callsIf m.group [.createBindGroup e.group]]

/-- The shared buffer was made to hold the blocks of so many objects. -/
structure MadeFor (e : Equipment) (alignment : UInt64) (required : Nat) : Prop where
  stride_eq : e.stride = objectStride alignment
  capacity_eq : e.capacity = objectCapacity required
  size_eq : e.uniforms.size = e.stride * e.capacity
  label_eq : e.uniforms.label = label "lit object ubo"

/-- The shared buffer is the one that the renderer keeps. -/
structure KeptFrom (e : Equipment) (r : LitRenderer) : Prop where
  uniforms_eq : r.uniforms = some e.uniforms
  stride_eq : r.stride = e.stride
  capacity_eq : r.capacity = e.capacity

/-- The objects suit a drawing of so many objects with `r`: the pipeline is for the target, and what
is not kept has just been made. -/
structure Suits (e : Equipment) (r : LitRenderer) (target : Target) (required : Nat) : Prop where
  attachments_eq : e.pipeline.attachments = target.attachments
  mesh_labels : r.lacksMesh → e.vertices.label = label "lit vbo" ∧ e.indices.label = label "lit ibo"
  objects : if r.capacity < required then e.MadeFor target.alignment required else e.KeptFrom r

/-- The draw of the object at a place of the shared buffer. -/
def draw (e : Equipment) (i : Nat) : Draw where
  bound := {
    pipeline := some e.pipeline
    group := some e.group
    offsets := [.ofNat (i * e.stride)]
    vertices := some e.vertices
    indices := some e.indices }
  count := e.indexCount

/-- The calls that draw the objects at some places of the shared buffer. -/
def drawCalls (e : Equipment) (places : List Nat) : List Call :=
  places.flatMap fun i => [.setBindGroup 0 e.group [.ofNat (i * e.stride)],
    .drawIndexed e.indexCount]

/-- The calls that follow once everything is at hand. -/
def passCalls (e : Equipment) (target : Target) (p : Projector Float32)
    (objects : List (Lighting.Object Float32)) : List Call :=
  [.writeBuffer e.uniforms 0 (objectBytes p objects e.stride),
   .beginPass (.over (label "lit pass") target), .setPipeline e.pipeline,
   .setVertexBuffer 0 e.vertices, .setIndexBuffer e.indices] ++
  e.drawCalls (List.range objects.length)

theorem drawObjects_makes (e : Equipment) (places : List Nat) (n : Nat) :
    Makes (drawObjects e.group e.stride e.indexCount places) n () n (e.drawCalls places) := by
  induction places with
  | nil => exact makes_pure () n
  | cons i places ih => exact (makes_record _ n).bind ((makes_record _ n).bind ih)

theorem drawsFrom_drawCalls (e : Equipment) (places : List Nat) (b : Bound)
    (pipeline : b.pipeline = some e.pipeline) (vertices : b.vertices = some e.vertices)
    (indices : b.indices = some e.indices) :
    drawsFrom b (e.drawCalls places) = places.map e.draw := by
  induction places generalizing b with
  | nil => rfl
  | cons i places ih =>
    -- the bind group is set anew for each object, so nothing depends on the one that was set before
    have head : b.after (.setBindGroup 0 e.group [.ofNat (i * e.stride)]) = (e.draw i).bound := by
      rw [Bound.after, pipeline, vertices, indices]
      rfl
    change ⟨b.after _, e.indexCount⟩ :: drawsFrom (b.after _) (e.drawCalls places) = _
    rw [head, ih (e.draw i).bound rfl rfl rfl]
    rfl

section Pass

variable (e : Equipment) (target : Target) (p : Projector Float32)
  (objects : List (Lighting.Object Float32))

theorem draws_passCalls :
    draws (e.passCalls target p objects) = (List.range objects.length).map e.draw :=
  e.drawsFrom_drawCalls _ _ rfl rfl rfl

theorem filterMap_bufferWrite_passCalls :
    (e.passCalls target p objects).filterMap Call.bufferWrite? =
      [(e.uniforms, 0, objectBytes p objects e.stride)] := by
  have none (places : List Nat) : (e.drawCalls places).filterMap Call.bufferWrite? = [] := by
    simp [drawCalls, List.filterMap_flatMap, Call.bufferWrite?]
  rw [passCalls, List.filterMap_append, none, List.append_nil]
  rfl

theorem filterMap_upload_passCalls :
    (e.passCalls target p objects).filterMap Call.upload? = [] := by
  have none (places : List Nat) : (e.drawCalls places).filterMap Call.upload? = [] := by
    simp [drawCalls, List.filterMap_flatMap, Call.upload?]
  rw [passCalls, List.filterMap_append, none, List.append_nil]
  rfl

theorem numbered_passCalls (n : Nat) : Numbered n n (e.passCalls target p objects) := by
  have none (places : List Nat) : (e.drawCalls places).flatMap Call.numbers = [] := by
    rw [drawCalls, List.flatMap_assoc]
    simp [Call.numbers]
  refine ⟨le_rfl, ?_⟩
  rw [passCalls, List.flatMap_append, none, List.append_nil, Nat.sub_self]
  rfl

end Pass

theorem making_isMaking (e : Equipment) (texture : Texture) (m : Missing) :
    ∀ c ∈ e.making texture m, c.isMaking := by
  intro c hc
  simp only [making, List.mem_flatten, List.mem_cons, List.not_mem_nil, or_false,
    exists_eq_or_imp, exists_eq_left, mem_callsIf] at hc
  rcases hc with ⟨-, rfl | rfl⟩ | ⟨-, rfl | rfl⟩ | ⟨-, rfl⟩ | ⟨-, rfl | rfl⟩ | ⟨-, rfl⟩ | ⟨-, rfl⟩
    <;> rfl

section Drawing

variable (e : Equipment) (texture : Texture) (m : Missing) (target : Target) (p : Projector Float32)
  (objects : List (Lighting.Object Float32))

/-- A whole drawing draws once per object. -/
theorem draws_drawing :
    draws (e.making texture m ++ e.passCalls target p objects) =
      (List.range objects.length).map e.draw := by
  rw [draws, drawsFrom_append_of_isMaking (e.making_isMaking texture m), ← draws, e.draws_passCalls]

/-- A whole drawing writes to one buffer only, and does so once. -/
theorem filterMap_bufferWrite_drawing :
    (e.making texture m ++ e.passCalls target p objects).filterMap Call.bufferWrite? =
      [(e.uniforms, 0, objectBytes p objects e.stride)] := by
  rw [List.filterMap_append, filterMap_bufferWrite_of_isMaking (e.making_isMaking texture m),
    e.filterMap_bufferWrite_passCalls, List.nil_append]

end Drawing

theorem filterMap_upload_making (e : Equipment) (texture : Texture) (m : Missing) :
    (e.making texture m).filterMap Call.upload? =
      if m.image then [(e.image, texture.upload)] else [] := by
  obtain ⟨pipeline, mesh, sampler, image, objects, group⟩ := m
  cases pipeline <;> cases mesh <;> cases sampler <;> cases image <;> cases objects <;>
    cases group <;> rfl

end Equipment

/-- What is ensured leaves nothing missing: a sound renderer keeps a full set of objects
afterwards. -/
theorem prepare_ensures {r : LitRenderer} {calls : List Call} (sound : r.Sound calls)
    (target : Target) {required : Nat} (positive : 0 < required) (n : Nat) :
    ∃ e k, e.Suits r target required ∧
      Ensures Sound calls (r.prepare target required) n (r.equip e) k
        (e.making r.texture (r.missing target.attachments required)) := by
  obtain ⟨p, g₁, n₁, fits, dropped₁, h₁⟩ := ensurePipeline_ensures sound n target.attachments
  obtain ⟨v, i, c, n₂, labels, h₂⟩ := ensureMesh_ensures h₁.sound n₁
  obtain ⟨s, n₃, h₃⟩ := ensureSampler_ensures h₂.sound n₂
  obtain ⟨image, g₄, n₄, dropped₄, h₄⟩ := ensureImage_ensures h₃.sound n₃
  obtain ⟨u, stride, capacity, g₅, n₅, room, dropped₅, h₅⟩ :=
    ensureObjects_ensures h₄.sound n₄ target.alignment positive
  obtain ⟨g, n₆, h₆⟩ := ensureGroup_ensures h₅.sound n₅ rfl rfl rfl rfl
  refine ⟨⟨p, g, u, capacity, stride, v, i, c, image, s⟩, n₆, ⟨fits, labels, ?_⟩, ?_⟩
  · change if r.capacity < required then _ else _ at room
    split_ifs at room ⊢ with small
    · obtain ⟨stride, capacity, size, name⟩ := room
      exact ⟨stride, capacity, size, name⟩
    · obtain ⟨uniforms, stride, capacity⟩ := room
      exact ⟨uniforms, stride, capacity⟩
  · -- the group is missing at last if it was at first, or if one of three operations has dropped it
    have dropped : g₅.isNone = (r.missing target.attachments required).group := by
      rw [dropped₅, dropped₄, dropped₁]
      rfl
    change Ensures Sound _ _ _ _ _ (callsIf g₅.isNone [.createBindGroup g]) at h₆
    rw [dropped, ← List.append_nil (callsIf _ [.createBindGroup g])] at h₆
    exact h₁.bind (h₂.bind (h₃.bind (h₄.bind (h₅.bind h₆))))

/-- A drawing that lacks nothing is not left out. -/
theorem draw_equip_makes (r : LitRenderer) (e : Equipment) (target : Target) (p : Projector Float32)
    (objects : List (Lighting.Object Float32)) (n : Nat) :
    Makes ((r.equip e).draw target p objects) n () n (e.passCalls target p objects) :=
  (makes_record _ n).bind <| (makes_record _ n).bind <| (makes_record _ n).bind <|
    (makes_record _ n).bind <| (makes_record _ n).bind <| e.drawObjects_makes _ n

/-- Drawing something makes exactly what is missing, and then draws with what is kept. -/
theorem render_remakes {r : LitRenderer} {calls : List Call} (sound : r.Sound calls)
    (target : Target) (p : Projector Float32) {objects : List (Lighting.Object Float32)}
    (some_objects : objects ≠ []) (some_mesh : r.mesh.indices ≠ []) (n : Nat) :
    ∃ e k, e.Suits r target objects.length ∧
      let cs := e.making r.texture (r.missing target.attachments objects.length) ++
        e.passCalls target p objects
      Makes (r.render target p objects) n (r.equip e) k cs ∧ Numbered n k cs ∧
        (r.equip e).Sound (calls ++ cs) := by
  have drawn : ¬ (objects.isEmpty || r.mesh.isEmpty) := by
    simp [Mesh.isEmpty, some_objects, some_mesh]
  obtain ⟨e, k, suits, prepared⟩ :=
    prepare_ensures sound target (List.length_pos_iff.2 some_objects) n
  have pass : Makes (do
      (r.equip e).draw target p objects
      return r.equip e) k (r.equip e) k (e.passCalls target p objects ++ []) :=
    (r.draw_equip_makes e target p objects k).bind (makes_pure (r.equip e) k)
  rw [List.append_nil] at pass
  refine ⟨e, k, suits, ?_, prepared.numbered.append (e.numbered_passCalls target p objects k), ?_⟩
  · rw [render, if_neg drawn]
    exact prepared.makes.bind pass
  · rw [← List.append_assoc]
    exact prepared.sound.append _ (e.filterMap_upload_passCalls target p objects)

theorem render_of_nothing (r : LitRenderer) (target : Target) (p : Projector Float32)
    {objects : List (Lighting.Object Float32)} (nothing : objects = [] ∨ r.mesh.indices = []) :
    r.render target p objects = pure r := by
  have empty : objects.isEmpty || r.mesh.isEmpty := by simpa [Mesh.isEmpty] using nothing
  rw [render, if_pos empty]

/-! ## Histories -/

/-- A call on a renderer. -/
inductive Op
  | setTexture (texture : Texture)
  | render (target : Target) (p : Projector Float32) (objects : List (Lighting.Object Float32))

/-- Makes one call on a renderer. -/
def step (r : LitRenderer) : Op → Recording LitRenderer
  | .setTexture texture => return r.setTexture texture
  | .render target p objects => r.render target p objects

/-- Makes calls on a renderer, in order. -/
def perform (r : LitRenderer) (history : List Op) : Recording LitRenderer :=
  history.foldlM step r

/-- The texture that a call sets. -/
def Op.texture? : Op → Option Texture
  | .setTexture texture => some texture
  | .render _ _ _ => none

/-- What one call on a renderer can do: it turns `r` into the given renderer by the given calls. -/
inductive Steps (r : LitRenderer) : Op → LitRenderer → List Call → Prop
  | setTexture (texture : Texture) : Steps r (.setTexture texture) (r.setTexture texture) []
  | idle {target p objects} (nothing : objects = [] ∨ r.mesh.indices = []) :
      Steps r (.render target p objects) r []
  | drawing {target p objects} {e : Equipment} (some_objects : objects ≠ [])
      (some_mesh : r.mesh.indices ≠ []) (suits : e.Suits r target objects.length) :
      Steps r (.render target p objects) (r.equip e)
        (e.making r.texture (r.missing target.attachments objects.length) ++
          e.passCalls target p objects)

theorem step_makes {r : LitRenderer} {calls : List Call} (sound : r.Sound calls)
    (op : Op) (n : Nat) :
    ∃ r' k cs, Makes (r.step op) n r' k cs ∧ Numbered n k cs ∧ r'.Sound (calls ++ cs) ∧
      r.Steps op r' cs := by
  cases op with
  | setTexture texture =>
    refine ⟨_, n, [], makes_pure _ n, .nil n, ?_, .setTexture texture⟩
    rw [List.append_nil]
    exact sound.setTexture texture
  | render target p objects =>
    by_cases nothing : objects = [] ∨ r.mesh.indices = []
    · refine ⟨r, n, [], ?_, .nil n, sound.append [] rfl, .idle nothing⟩
      rw [step, r.render_of_nothing target p nothing]
      exact makes_pure r n
    · obtain ⟨some_objects, some_mesh⟩ := not_or.1 nothing
      obtain ⟨e, k, suits, makes, numbered, sound'⟩ :=
        render_remakes sound target p some_objects some_mesh n
      exact ⟨r.equip e, k, _, makes, numbered, sound', .drawing some_objects some_mesh suits⟩

/-- A history keeps a renderer sound, and what holds at first and is kept by every call holds after
it. -/
theorem perform_invariant {P : List Op → LitRenderer → List Call → Prop} {r : LitRenderer}
    {earlier : List Call} (sound : r.Sound earlier) (start : P [] r [])
    (next : ∀ {history r calls op r' cs}, P history r calls → r.Steps op r' cs →
      P (history ++ [op]) r' (calls ++ cs))
    (history : List Op) (n : Nat) :
    ∃ r' k cs, Makes (r.perform history) n r' k cs ∧ Numbered n k cs ∧ r'.Sound (earlier ++ cs) ∧
      P history r' cs := by
  refine foldlM_invariant (P := fun history r' k cs =>
    Numbered n k cs ∧ r'.Sound (earlier ++ cs) ∧ P history r' cs)
    ⟨.nil n, sound.append [] rfl, start⟩ ?_ history
  intro history r' k cs op ⟨numbered, sound', holds⟩
  obtain ⟨r'', l, ds, makes, numbered', sound'', steps⟩ := step_makes sound' op k
  rw [List.append_assoc] at sound''
  exact ⟨r'', l, ds, makes, numbered.append numbered', sound'', next holds steps⟩

theorem Steps.mesh_eq {r r' : LitRenderer} {op : Op} {cs : List Call} (steps : r.Steps op r' cs) :
    r'.mesh = r.mesh := by
  cases steps <;> rfl

theorem Steps.texture_eq {r r' : LitRenderer} {op : Op} {cs : List Call}
    (steps : r.Steps op r' cs) : r'.texture = op.texture?.getD r.texture := by
  cases steps <;> rfl

/-- A drawing after a history on a device. The calls of both are counted up, the renderer is sound
in the end, and what the calls of the history keep holds when the drawing starts. If there is
something to draw, the drawing makes exactly what is missing. -/
theorem render_after_perform {P : List Op → LitRenderer → List Call → Prop} {mesh : Mesh Float32}
    {texture : Texture} {history : List Op} {device : Recorder} {target : Target}
    {p : Projector Float32} {objects : List (Lighting.Object Float32)}
    (start : P [] (ofMesh mesh texture) [])
    (next : ∀ {history r calls op r' cs}, P history r calls → r.Steps op r' cs →
      P (history ++ [op]) r' (calls ++ cs))
    (before after : LitRenderer × Recorder)
    (hb : ((ofMesh mesh texture).perform history).run device = before)
    (ha : (before.1.render target p objects).run before.2 = after) :
    ∃ earlier calls : List Call,
      before.2.calls = device.calls ++ earlier.toArray ∧
      after.2.calls = before.2.calls ++ calls.toArray ∧
      Numbered device.next after.2.next (earlier ++ calls) ∧
      before.1.Sound earlier ∧ after.1.Sound (earlier ++ calls) ∧
      before.1.mesh = mesh ∧ P history before.1 earlier ∧
      if objects = [] ∨ mesh.indices = [] then after = before
      else ∃ e : Equipment, e.Suits before.1 target objects.length ∧ after.1 = before.1.equip e ∧
        calls = e.making before.1.texture (before.1.missing target.attachments objects.length) ++
          e.passCalls target p objects := by
  obtain ⟨r, k, earlier, performed, numbered, sound, rfl, holds⟩ :=
    perform_invariant (P := fun history r cs => r.mesh = mesh ∧ P history r cs)
      (sound_ofMesh mesh texture []) ⟨rfl, start⟩
      (fun ⟨same, holds⟩ steps => ⟨steps.mesh_eq.trans same, next holds steps⟩)
      history device.next
  obtain ⟨r', l, calls, drawn, numbered', sound', steps⟩ :=
    step_makes sound (.render target p objects) k
  cases (performed device.calls).symm.trans hb
  cases (drawn _).symm.trans ha
  refine ⟨earlier, calls, rfl, rfl, numbered.append numbered', sound, sound', rfl, holds, ?_⟩
  cases steps with
  | idle nothing =>
    rw [if_pos nothing]
    rw [r.render_of_nothing target p nothing] at ha
    exact ha.symm
  | @drawing _ _ _ e some_objects some_mesh suits =>
    rw [if_neg (not_or.2 ⟨some_objects, some_mesh⟩)]
    exact ⟨e, suits, rfl, rfl⟩

/-- The objects of a drawing are up to date: the pipeline is for the given attachments, the bind
group joins the pipeline's layout with the shared buffer, image and sampler at hand, the image shows
the texture, the buffers hold the mesh, and all of them have been made. -/
structure Equipment.UpToDate (e : Equipment) (calls : List Call) (mesh : Mesh Float32)
    (texture : Texture) (attachments : Attachments) : Prop where
  pipeline_made : .createPipeline e.pipeline ∈ calls
  layout_made : .createLayout e.pipeline.layout ∈ calls
  attachments_eq : e.pipeline.attachments = attachments
  group_made : .createBindGroup e.group ∈ calls
  group_binds : e.group.Binds e.pipeline.layout e.uniforms e.image e.sampler
  uniforms_made : .createBuffer e.uniforms ∈ calls
  sampler_made : .createSampler e.sampler ∈ calls
  image_shows : e.image.Shows texture calls
  mesh_held : mesh.HeldBy e.vertices e.indices e.indexCount calls

theorem Sound.upToDate {r : LitRenderer} {e : Equipment} {calls : List Call}
    {attachments : Attachments} (sound : (r.equip e).Sound calls)
    (fits : e.pipeline.attachments = attachments) :
    e.UpToDate calls r.mesh r.texture attachments := by
  obtain ⟨made, l, u, i, s, hl, hu, hi, hs, binds⟩ := sound.group e.group rfl
  obtain ⟨pipeline, layout, -, -⟩ := sound.pipeline e.pipeline rfl
  obtain ⟨t, shows, clean⟩ := sound.image e.image rfl
  cases hl
  cases hu
  cases hi
  cases hs
  cases clean rfl
  exact ⟨pipeline, layout, fits, made, binds, sound.uniforms _ rfl, sound.sampler _ rfl, shows,
    sound.mesh _ _ rfl rfl⟩

end LitRenderer

end GroundPlane
