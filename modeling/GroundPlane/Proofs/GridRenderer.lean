import Mathlib
import GroundPlane.Draw.Grid
import GroundPlane.Proofs.Recording

/-!
# The objects that the grid is drawn with

The renderer of the grid keeps device objects from call to call, each in a field of its own, and
drops its uniform buffer together with the bind group when the attachments change. `Sound` is the
invariant behind this. Each `ensure` operation preserves it and makes exactly what is missing, so
that no drawing is left out (`prepare_ensures`), and what is missing can be read off the history of
drawings (`Reflects`). So every draw reads the block that its own call has written, and nothing is
made that could have been kept (`render_remakes_for_attachments`).
-/

namespace GroundPlane

open Gpu Recording

namespace GridRenderer

/-- The buffers hold the rectangle over the screen. -/
structure CoverScreen (vertices indices : Buffer) (calls : List Call) : Prop where
  vertices_made : .createBuffer vertices ∈ calls
  vertices_contents :
    vertices.contents = some (floatWords (screenCorners.flatMap Vec2.toList)).bytes
  indices_made : .createBuffer indices ∈ calls
  indices_contents : indices.contents = some (screenIndices.flatMap indexBytes)

theorem CoverScreen.append {vertices indices : Buffer} {calls : List Call}
    (h : CoverScreen vertices indices calls) (more : List Call) :
    CoverScreen vertices indices (calls ++ more) where
  vertices_made := List.mem_append_left more h.vertices_made
  vertices_contents := h.vertices_contents
  indices_made := List.mem_append_left more h.indices_made
  indices_contents := h.indices_contents

/-- Everything that is kept has been made by the calls so far, and belongs together: the pipeline is
for the attachments that are noted and for the layout, the uniform buffer and the bind group are
kept together or not at all, and the group was made for the layout, from the buffer. -/
structure Sound (r : GridRenderer) (calls : List Call) : Prop where
  pipeline : ∀ p, r.pipeline = some p → .createPipeline p ∈ calls ∧ .createLayout p.layout ∈ calls ∧
    r.key = some p.attachments ∧ r.layout = some p.layout
  quad : ∀ v i, r.vertices = some v → r.indices = some i → CoverScreen v i calls
  paired : r.group.isSome = r.uniforms.isSome
  uniforms : ∀ b, r.uniforms = some b → .createBuffer b ∈ calls
  group : ∀ g, r.group = some g → .createBindGroup g ∈ calls ∧
    ∃ l b, r.layout = some l ∧ r.uniforms = some b ∧ g.layout = l ∧ g.bindings = [.buffer b]

theorem sound_initial (calls : List Call) : initial.Sound calls where
  pipeline _ kept := by cases kept
  quad _ _ kept _ := by cases kept
  paired := rfl
  uniforms _ kept := by cases kept
  group _ kept := by cases kept

theorem Sound.append {r : GridRenderer} {calls : List Call} (h : r.Sound calls) (more : List Call) :
    r.Sound (calls ++ more) where
  pipeline p hp :=
    have ⟨made, layout, fits⟩ := h.pipeline p hp
    ⟨List.mem_append_left more made, List.mem_append_left more layout, fits⟩
  quad v i hv hi := (h.quad v i hv hi).append more
  paired := h.paired
  uniforms b hb := List.mem_append_left more (h.uniforms b hb)
  group g hg :=
    have ⟨made, binds⟩ := h.group g hg
    ⟨List.mem_append_left more made, binds⟩

/-! ## The objects that are ensured -/

/-- The next drawing makes the rectangle. -/
def lacksQuad (r : GridRenderer) : Bool :=
  !decide (r.vertices.isSome ∧ r.indices.isSome)

/-- The next drawing makes the uniform buffer and its bind group. -/
def lacksBindings (r : GridRenderer) : Bool :=
  !decide (r.group.isSome ∧ r.uniforms.isSome)

section Ensured

variable {r : GridRenderer} {calls : List Call} (sound : r.Sound calls) (n : Nat)

include sound

theorem ensurePipeline_ensures (attachments : Attachments) :
    ∃ p g u k, p.attachments = attachments ∧
      (!decide (g.isSome ∧ u.isSome)) =
        (r.lacksBindings || lacksPipeline r.key r.pipeline attachments) ∧
      Ensures Sound calls (r.ensurePipeline attachments) n
        { r with
          key := some p.attachments, pipeline := some p, layout := some p.layout
          group := g, uniforms := u } k
        (callsIf (lacksPipeline r.key r.pipeline attachments)
          [.createLayout p.layout, .createPipeline p]) := by
  by_cases kept : r.key = some attachments ∧ r.pipeline.isSome
  · obtain ⟨p, hp⟩ := Option.isSome_iff_exists.1 kept.2
    obtain ⟨-, -, key, layout⟩ := sound.pipeline p hp
    have same : { r with
        key := some p.attachments, pipeline := some p, layout := some p.layout
        group := r.group, uniforms := r.uniforms } = r := by rw [← key, ← hp, ← layout]
    rw [lacksPipeline_of_kept kept, Bool.or_false]
    refine ⟨p, r.group, r.uniforms, n, Option.some.inj (key.symm.trans kept.1), rfl, ?_⟩
    rw [same]
    exact .kept (by rw [ensurePipeline, if_pos kept]) sound n
  · obtain ⟨l, k, layout⟩ := createLayout_creates (label "grid bgl") n
    obtain ⟨p, k', rfl, rfl, pipeline⟩ :=
      createPipeline_creates (label "grid pipeline") l attachments k
    rw [lacksPipeline_of_not_kept kept, Bool.or_true]
    refine ⟨p, none, none, k', rfl, rfl, ?_, ?_⟩
    · rw [ensurePipeline, if_neg kept]
      exact layout.bind (pipeline.bind (creates_pure _ _))
    · have old := sound.append [.createLayout p.layout, .createPipeline p]
      refine ⟨?_, old.quad, rfl, nofun, nofun⟩
      rintro p ⟨⟩
      exact ⟨by simp [callsIf], by simp [callsIf], rfl, rfl⟩

theorem ensureQuad_ensures :
    ∃ v i k, Ensures Sound calls r.ensureQuad n { r with vertices := some v, indices := some i } k
      (callsIf r.lacksQuad [.createBuffer v, .createBuffer i]) := by
  by_cases kept : r.vertices.isSome ∧ r.indices.isSome
  · obtain ⟨v, hv⟩ := Option.isSome_iff_exists.1 kept.1
    obtain ⟨i, hi⟩ := Option.isSome_iff_exists.1 kept.2
    have same : { r with vertices := some v, indices := some i } = r := by rw [← hv, ← hi]
    refine ⟨v, i, n, ?_⟩
    rw [lacksQuad, decide_eq_true kept, same]
    exact .kept (by rw [ensureQuad, if_pos kept]) sound n
  · obtain ⟨v, l, -, hv, vertices⟩ := createBufferWith_creates (label "grid quad vbo")
      (floatWords (screenCorners.flatMap Vec2.toList)).bytes n
    obtain ⟨i, k, -, hi, indices⟩ :=
      createBufferWith_creates (label "grid quad ibo") (screenIndices.flatMap indexBytes) l
    refine ⟨v, i, k, ?_⟩
    rw [lacksQuad, decide_eq_false kept]
    constructor
    · rw [ensureQuad, if_neg kept]
      exact vertices.bind (indices.bind (creates_pure _ _))
    · have old := sound.append [.createBuffer v, .createBuffer i]
      refine ⟨old.pipeline, ?_, old.paired, old.uniforms, old.group⟩
      rintro v i ⟨⟩ ⟨⟩
      exact ⟨by simp [callsIf], hv, by simp [callsIf], hi⟩

theorem ensureBindings_ensures {l : GroupLayout} (hl : r.layout = some l) :
    ∃ u g k, Ensures Sound calls r.ensureBindings n { r with uniforms := some u, group := some g } k
      (callsIf r.lacksBindings [.createBuffer u, .createBindGroup g]) := by
  by_cases kept : r.group.isSome ∧ r.uniforms.isSome
  · obtain ⟨g, hg⟩ := Option.isSome_iff_exists.1 kept.1
    obtain ⟨u, hu⟩ := Option.isSome_iff_exists.1 kept.2
    have same : { r with uniforms := some u, group := some g } = r := by rw [← hg, ← hu]
    refine ⟨u, g, n, ?_⟩
    rw [lacksBindings, decide_eq_true kept, same]
    exact .kept (by rw [ensureBindings, if_pos kept]) sound n
  · obtain ⟨u, k, -, -, uniforms⟩ := createBuffer_creates (label "grid ubo") gridBlockSize n
    obtain ⟨g, k', layout, bindings, group⟩ :=
      createBindGroup_creates (label "grid bind group") l [.buffer u] k
    refine ⟨u, g, k', ?_⟩
    rw [lacksBindings, decide_eq_false kept]
    constructor
    · rw [ensureBindings, if_neg kept, hl]
      exact uniforms.bind (group.bind (creates_pure _ _))
    · have old := sound.append [.createBuffer u, .createBindGroup g]
      refine ⟨old.pipeline, old.quad, rfl, ?_, ?_⟩
      · rintro u ⟨⟩
        simp [callsIf]
      · rintro g ⟨⟩
        exact ⟨by simp [callsIf], l, u, hl, rfl, layout, bindings⟩

end Ensured

/-! ## Drawing -/

/-- What a drawing has to make. -/
structure Missing where
  pipeline : Bool
  quad : Bool
  bindings : Bool
deriving DecidableEq

/-- What a drawing to these attachments has to make. New bindings are made along with a new
pipeline. -/
def missing (r : GridRenderer) (attachments : Attachments) : Missing where
  pipeline := lacksPipeline r.key r.pipeline attachments
  quad := r.lacksQuad
  bindings := r.lacksBindings || lacksPipeline r.key r.pipeline attachments

/-- The objects that a drawing uses. -/
structure Equipment where
  pipeline : Pipeline
  group : BindGroup
  uniforms : Buffer
  vertices : Buffer
  indices : Buffer

namespace Equipment

/-- The renderer that keeps these objects. -/
def kept (e : Equipment) : GridRenderer where
  key := some e.pipeline.attachments
  pipeline := some e.pipeline
  layout := some e.pipeline.layout
  group := some e.group
  uniforms := some e.uniforms
  vertices := some e.vertices
  indices := some e.indices

/-- The calls that make what is missing. -/
def making (e : Equipment) (m : Missing) : List Call :=
  List.flatten [
    callsIf m.pipeline [.createLayout e.pipeline.layout, .createPipeline e.pipeline],
    callsIf m.quad [.createBuffer e.vertices, .createBuffer e.indices],
    callsIf m.bindings [.createBuffer e.uniforms, .createBindGroup e.group]]

/-- The calls that follow once everything is at hand. -/
def passCalls (e : Equipment) (target : Target) (p : Projector Float32)
    (style : Grid.Style Float32) : List Call :=
  [.writeBuffer e.uniforms 0 (gridBlock p style).bytes,
   .beginPass (.over (label "grid pass") target), .setPipeline e.pipeline,
   .setBindGroup 0 e.group [],
   .setVertexBuffer 0 e.vertices, .setIndexBuffer e.indices,
   .drawIndexed (.ofNat screenIndices.length)]

theorem numbered_passCalls (e : Equipment) (target : Target) (p : Projector Float32)
    (style : Grid.Style Float32) (n : Nat) : Numbered n n (e.passCalls target p style) := by
  refine ⟨le_rfl, ?_⟩
  rw [Nat.sub_self]
  rfl

/-- What is set on the pass when the grid is drawn. -/
def bound (e : Equipment) : Bound where
  pipeline := some e.pipeline
  group := some e.group
  offsets := []
  vertices := some e.vertices
  indices := some e.indices

theorem making_isMaking (e : Equipment) (m : Missing) : ∀ c ∈ e.making m, c.isMaking := by
  intro c hc
  simp only [making, List.mem_flatten, List.mem_cons, List.not_mem_nil, or_false,
    exists_eq_or_imp, exists_eq_left, mem_callsIf] at hc
  rcases hc with ⟨-, rfl | rfl⟩ | ⟨-, rfl | rfl⟩ | ⟨-, rfl | rfl⟩ <;> rfl

theorem filterMap_upload_making (e : Equipment) (m : Missing) :
    (e.making m).filterMap Call.upload? = [] := by
  obtain ⟨pipeline, quad, bindings⟩ := m
  cases pipeline <;> cases quad <;> cases bindings <;> rfl

end Equipment

/-- What is ensured leaves nothing missing: a sound renderer keeps a full set of objects
afterwards. -/
theorem prepare_ensures {r : GridRenderer} {calls : List Call} (sound : r.Sound calls)
    (attachments : Attachments) (n : Nat) :
    ∃ (e : Equipment) (k : Nat), e.pipeline.attachments = attachments ∧
      Ensures Sound calls (r.prepare attachments) n e.kept k
        (e.making (r.missing attachments)) := by
  obtain ⟨p, g₁, u₁, n₁, fits, dropped, h₁⟩ := ensurePipeline_ensures sound n attachments
  obtain ⟨v, i, n₂, h₂⟩ := ensureQuad_ensures h₁.sound n₁
  obtain ⟨u, g, n₃, h₃⟩ := ensureBindings_ensures h₂.sound n₂ rfl
  refine ⟨⟨p, g, u, v, i⟩, n₃, fits, ?_⟩
  change (!decide (g₁.isSome ∧ u₁.isSome)) = (r.missing attachments).bindings at dropped
  change Ensures Sound _ _ _ _ _
    (callsIf (!decide (g₁.isSome ∧ u₁.isSome)) [.createBuffer u, .createBindGroup g]) at h₃
  rw [dropped, ← List.append_nil (callsIf _ [.createBuffer u, .createBindGroup g])] at h₃
  exact h₁.bind (h₂.bind h₃)

/-- A drawing that lacks nothing is not left out. -/
theorem draw_kept_makes (e : Equipment) (target : Target) (p : Projector Float32)
    (style : Grid.Style Float32) (n : Nat) :
    Makes (e.kept.draw target p style) n () n (e.passCalls target p style) :=
  (makes_record _ n).bind <| (makes_record _ n).bind <| (makes_record _ n).bind <|
    (makes_record _ n).bind <| (makes_record _ n).bind <| (makes_record _ n).bind <|
      makes_record _ n

/-- Drawing the grid makes exactly what is missing, and then draws with what is kept. -/
theorem render_remakes {r : GridRenderer} {calls : List Call} (sound : r.Sound calls)
    {target : Target} (valid : target.viewport.isValid) (p : Projector Float32)
    (style : Grid.Style Float32) (n : Nat) :
    ∃ (e : Equipment) (k : Nat), e.pipeline.attachments = target.attachments ∧
      let cs := e.making (r.missing target.attachments) ++ e.passCalls target p style
      Makes (r.render target p style) n e.kept k cs ∧ Numbered n k cs ∧
        e.kept.Sound (calls ++ cs) := by
  obtain ⟨e, k, fits, prepared⟩ := prepare_ensures sound target.attachments n
  have pass : Makes (do
      e.kept.draw target p style
      return e.kept) k e.kept k (e.passCalls target p style ++ []) :=
    (draw_kept_makes e target p style k).bind (makes_pure e.kept k)
  rw [List.append_nil] at pass
  refine ⟨e, k, fits, ?_, prepared.numbered.append (e.numbered_passCalls target p style k), ?_⟩
  · rw [render, if_pos valid]
    exact prepared.makes.bind pass
  · rw [← List.append_assoc]
    exact prepared.sound.append _

theorem render_of_invalid (r : GridRenderer) {target : Target} (invalid : ¬ target.viewport.isValid)
    (p : Projector Float32) (style : Grid.Style Float32) : r.render target p style = pure r := by
  rw [render, if_neg invalid]

/-! ## Histories -/

/-- A call that draws the grid. -/
structure Request where
  target : Target
  projector : Projector Float32
  style : Grid.Style Float32

/-- Draws the grid several times, in order. -/
def perform (r : GridRenderer) (history : List Request) : Recording GridRenderer :=
  history.foldlM (fun r q => r.render q.target q.projector q.style) r

/-- The attachments of the last drawing to a valid viewport. -/
def lastDrawn? (history : List Request) : Option Attachments :=
  (history.filter (·.target.viewport.isValid)).getLast?.map (·.target.attachments)

theorem lastDrawn?_concat (history : List Request) (q : Request) :
    lastDrawn? (history ++ [q]) =
      if q.target.viewport.isValid then some q.target.attachments else lastDrawn? history := by
  by_cases valid : q.target.viewport.isValid <;> simp [lastDrawn?, List.filter_append, valid]

/-- What is kept tells the attachments of the last drawing, and there is nothing before the first
one. -/
structure Reflects (r : GridRenderer) (history : List Request) : Prop where
  key : r.key = lastDrawn? history
  pipeline : r.pipeline.isSome = (lastDrawn? history).isSome
  quad : r.lacksQuad = (lastDrawn? history).isNone
  group : r.group.isSome = (lastDrawn? history).isSome
  uniforms : r.uniforms.isSome = (lastDrawn? history).isSome

theorem Reflects.missing {r : GridRenderer} {history : List Request} (h : r.Reflects history)
    (attachments : Attachments) :
    r.missing attachments =
      { pipeline := lastDrawn? history ≠ some attachments
        quad := lastDrawn? history = none
        bindings := lastDrawn? history ≠ some attachments } := by
  unfold GridRenderer.missing lacksPipeline lacksBindings
  rw [h.key, h.pipeline, h.quad, h.group, h.uniforms]
  cases lastDrawn? history <;> simp

/-- After any history the renderer is sound and reflects the history. -/
theorem perform_reflects (history : List Request) (n : Nat) :
    ∃ r k cs, Makes (initial.perform history) n r k cs ∧ Numbered n k cs ∧ r.Sound cs ∧
      r.Reflects history := by
  refine foldlM_invariant (P := fun history (r : GridRenderer) k cs =>
    Numbered n k cs ∧ r.Sound cs ∧ r.Reflects history)
    ⟨.nil n, sound_initial [], rfl, rfl, rfl, rfl, rfl⟩ ?_ history
  intro history r k cs q ⟨numbered, sound, reflects⟩
  by_cases valid : q.target.viewport.isValid
  · have drawn : lastDrawn? (history ++ [q]) = some q.target.attachments := by
      rw [lastDrawn?_concat, if_pos valid]
    obtain ⟨e, l, fits, makes, numbered', sound'⟩ :=
      render_remakes sound valid q.projector q.style k
    refine ⟨e.kept, l, _, makes, numbered.append numbered', sound', ?_⟩
    constructor <;> rw [drawn]
    · exact congrArg some fits
    all_goals rfl
  · have kept : lastDrawn? (history ++ [q]) = lastDrawn? history := by
      rw [lastDrawn?_concat, if_neg valid]
    refine ⟨r, k, [], ?_, ?_⟩
    · rw [r.render_of_invalid valid]
      exact makes_pure r k
    · rw [List.append_nil]
      refine ⟨numbered, sound, ?_⟩
      constructor <;> rw [kept]
      exacts [reflects.key, reflects.pipeline, reflects.quad, reflects.group, reflects.uniforms]

/-- The objects of a drawing are up to date: the pipeline is for the given attachments, the bind
group joins the pipeline's layout with the uniform buffer, the rectangle covers the screen, and all
of them have been made. -/
structure Equipment.UpToDate (e : Equipment) (calls : List Call) (attachments : Attachments) :
    Prop where
  pipeline_made : .createPipeline e.pipeline ∈ calls
  layout_made : .createLayout e.pipeline.layout ∈ calls
  attachments_eq : e.pipeline.attachments = attachments
  group_made : .createBindGroup e.group ∈ calls
  layout_eq : e.group.layout = e.pipeline.layout
  bindings_eq : e.group.bindings = [.buffer e.uniforms]
  uniforms_made : .createBuffer e.uniforms ∈ calls
  quad_covers : CoverScreen e.vertices e.indices calls

theorem Sound.upToDate {e : Equipment} {calls : List Call} {attachments : Attachments}
    (sound : e.kept.Sound calls) (fits : e.pipeline.attachments = attachments) :
    e.UpToDate calls attachments := by
  obtain ⟨pipeline, layout, -, -⟩ := sound.pipeline e.pipeline rfl
  obtain ⟨made, l, u, hl, hu, layout_eq, bindings_eq⟩ := sound.group e.group rfl
  cases hl
  cases hu
  exact ⟨pipeline, layout, fits, made, layout_eq, bindings_eq, sound.uniforms _ rfl,
    sound.quad _ _ rfl rfl⟩

/-- After any history of drawings on a device, the uniform buffer and the bind group are both there
if a viewport was valid, and else both absent. The next drawing does nothing if its viewport is not
valid. Otherwise it draws the six indices of the rectangle once, with objects that are up to date,
after it has written its block to the buffer that they bind. It makes the pipeline and the bindings
exactly if the last drawing had other attachments, or there was none, and the rectangle exactly if
there was none. -/
theorem render_remakes_for_attachments (history : List Request) (device : Recorder)
    (target : Target) (p : Projector Float32) (style : Grid.Style Float32) :
    let before := (initial.perform history).run device
    let after := (before.1.render target p style).run before.2
    before.1.group.isSome = (lastDrawn? history).isSome ∧
    before.1.uniforms.isSome = (lastDrawn? history).isSome ∧
    ∃ earlier calls : List Call,
      before.2.calls = device.calls ++ earlier.toArray ∧
      after.2.calls = before.2.calls ++ calls.toArray ∧
      Numbered device.next after.2.next (earlier ++ calls) ∧
      if target.viewport.isValid then ∃ e : Equipment,
        after.1 = e.kept ∧ draws calls = [⟨e.bound, 6⟩] ∧
        calls.filterMap Call.bufferWrite? = [(e.uniforms, 0, (gridBlock p style).bytes)] ∧
        e.UpToDate (earlier ++ calls) target.attachments ∧
        calls.filter Call.isMaking = e.making
          { pipeline := lastDrawn? history ≠ some target.attachments
            quad := lastDrawn? history = none
            bindings := lastDrawn? history ≠ some target.attachments }
      else after = before := by
  obtain ⟨r, k, earlier, performed, numbered, sound, reflects⟩ :=
    perform_reflects history device.next
  intro before after
  have hb : before = (r, ⟨k, device.calls ++ earlier.toArray⟩) := performed device.calls
  refine ⟨by rw [hb]; exact reflects.group, by rw [hb]; exact reflects.uniforms, ?_⟩
  by_cases valid : target.viewport.isValid
  · obtain ⟨e, l, fits, drawn, numbered', sound'⟩ := render_remakes sound valid p style k
    have ha : after = (e.kept, ⟨l, before.2.calls ++
        (e.making (r.missing target.attachments) ++ e.passCalls target p style).toArray⟩) := by
      change (before.1.render target p style).run before.2 = _
      rw [hb]
      exact drawn _
    refine ⟨earlier, _, by rw [hb], by rw [ha], ?_, ?_⟩
    · rw [ha]
      exact numbered.append numbered'
    · rw [if_pos valid, ← reflects.missing]
      refine ⟨e, by rw [ha], ?_, ?_, sound'.upToDate fits,
        filter_isMaking_append (e.making_isMaking _) rfl⟩
      · rw [draws, drawsFrom_append_of_isMaking (e.making_isMaking _)]
        rfl
      · rw [List.filterMap_append, filterMap_bufferWrite_of_isMaking (e.making_isMaking _)]
        rfl
  · have ha : after = before := by
      change (before.1.render target p style).run before.2 = before
      rw [hb, r.render_of_invalid valid]
      rfl
    refine ⟨earlier, [], by rw [hb], ?_, ?_, ?_⟩
    · rw [ha]
      exact Array.append_empty.symm
    · rw [ha, hb, List.append_nil]
      exact numbered
    · rw [if_neg valid]
      exact ha

end GridRenderer

end GroundPlane
