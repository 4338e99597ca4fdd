import Mathlib
import GroundPlane.Proofs.GridRenderer
import GroundPlane.Proofs.LitRenderer

/-!
# The passes that renderers add to a frame

Whatever a renderer keeps, its calls make objects, write uniforms, or belong to one pass, which
keeps what earlier passes have drawn (`render_only`). If what it keeps is sound, and there is
something to draw, then it makes what it lacks, writes its uniforms and draws in one pass
(`AddsPass`).
-/

namespace GroundPlane

open Gpu Recording

/-- The call sets something for the draws of a pass, or draws. -/
def Call.isCommand : Call → Bool
  | .setPipeline _ | .setBindGroup _ _ _ | .setVertexBuffer _ _ | .setIndexBuffer _
  | .drawIndexed _ => true
  | _ => false

/-- The call can be one of those that add a pass to a frame. -/
inductive Call.IsOfPass (label : String) (target : Target) : Call → Prop
  | making {c : Call} : c.isMaking → IsOfPass label target c
  | write (buffer : Buffer) (bytes : List UInt8) :
      IsOfPass label target (.writeBuffer buffer 0 bytes)
  | pass : IsOfPass label target (.beginPass (.over label target))
  | command {c : Call} : c.isCommand → IsOfPass label target c

/-- The calls that add one pass to a frame: objects are made, uniforms are written, and the pass
draws. -/
inductive AddsPass (label : String) (target : Target) : List Call → Prop
  | intro {made commands : List Call} {buffer : Buffer} {bytes : List UInt8} :
      (∀ c ∈ made, c.isMaking) → (∀ c ∈ commands, c.isCommand) →
      (∃ count, .drawIndexed count ∈ commands) →
      AddsPass label target
        (made ++ .writeBuffer buffer 0 bytes :: .beginPass (.over label target) :: commands)

/-- The calls that add a pass if there is something to draw, and else do nothing. -/
def AddsPassIf (something : Prop) (label : String) (target : Target) (cs : List Call) : Prop :=
  (something → AddsPass label target cs) ∧ (¬ something → cs = [])

/-! ## Calls of a renderer that keeps anything -/

theorem Recording.only_making {label : String} {target : Target} {β : Type} {m : Recording β}
    (making : m.Only fun c => c.isMaking) : m.Only (Call.IsOfPass label target) :=
  making.mono fun _ => .making

theorem Recording.only_write (label : String) (target : Target) (buffer : Buffer)
    (bytes : List UInt8) :
    (record (.writeBuffer buffer 0 bytes)).Only (Call.IsOfPass label target) :=
  only_record (.write buffer bytes)

theorem Recording.only_beginPass (label : String) (target : Target) :
    (beginPass label target).Only (Call.IsOfPass label target) :=
  only_record .pass

theorem Recording.only_command (label : String) (target : Target) {c : Call}
    (command : c.isCommand) : (record c).Only (Call.IsOfPass label target) :=
  only_record (.command command)

namespace LitRenderer

theorem ensurePipeline_only (r : LitRenderer) (attachments : Attachments) :
    (r.ensurePipeline attachments).Only fun c => c.isMaking := by
  unfold ensurePipeline
  split
  · exact only_pure r
  · exact (createLayout_only _).bind fun layout => (createPipeline_only _ layout _).bind fun _ =>
      only_pure _

theorem ensureMesh_only (r : LitRenderer) : r.ensureMesh.Only fun c => c.isMaking := by
  unfold ensureMesh
  split
  · exact only_pure r
  · exact (createBufferWith_only _ _).bind fun _ => (createBufferWith_only _ _).bind fun _ =>
      only_pure _

theorem ensureSampler_only (r : LitRenderer) : r.ensureSampler.Only fun c => c.isMaking := by
  unfold ensureSampler
  split
  · exact only_pure r
  · exact createSampler_only.bind fun _ => only_pure _

theorem ensureImage_only (r : LitRenderer) : r.ensureImage.Only fun c => c.isMaking := by
  unfold ensureImage
  split
  · exact only_pure r
  · exact (uploadImage_only _ _ _).bind fun _ => only_pure _

theorem ensureObjects_only (r : LitRenderer) (alignment : UInt64) (required : Nat) :
    (r.ensureObjects alignment required).Only fun c => c.isMaking := by
  unfold ensureObjects
  split
  · exact only_pure r
  · exact (createBuffer_only _ _).bind fun _ => only_pure _

theorem ensureGroup_only (r : LitRenderer) : r.ensureGroup.Only fun c => c.isMaking := by
  unfold ensureGroup
  -- a group is made only if the layout, the buffer, the image and the sampler are all there
  repeat' split
  case h_1 => exact (createBindGroup_only _ _ _).bind fun _ => only_pure _
  all_goals exact only_pure r

theorem prepare_only (r : LitRenderer) (target : Target) (required : Nat) :
    (r.prepare target required).Only fun c => c.isMaking :=
  (r.ensurePipeline_only _).bind fun r => r.ensureMesh_only.bind fun r => r.ensureSampler_only.bind
    fun r => r.ensureImage_only.bind fun r => (r.ensureObjects_only _ _).bind fun r =>
      r.ensureGroup_only

theorem drawObjects_only (target : Target) (group : BindGroup) (stride : Nat) (count : UInt32)
    (places : List Nat) :
    (drawObjects group stride count places).Only (Call.IsOfPass (label "lit pass") target) := by
  induction places with
  | nil => exact only_pure ()
  | cons i places ih =>
    exact (only_command _ target rfl).bind fun _ => (only_command _ target rfl).bind fun _ => ih

theorem draw_only (r : LitRenderer) (target : Target) (p : Projector Float32)
    (objects : List (Lighting.Object Float32)) :
    (r.draw target p objects).Only (Call.IsOfPass (label "lit pass") target) := by
  unfold draw
  split
  · refine (only_write _ target _ _).bind fun _ => ?_
    repeat' split
    case h_1 =>
      exact (only_beginPass _ target).bind fun _ => (only_command _ target rfl).bind fun _ =>
        (only_command _ target rfl).bind fun _ => (only_command _ target rfl).bind fun _ =>
          drawObjects_only target _ _ _ _
    all_goals exact only_pure ()
  · exact only_pure ()

theorem render_only (r : LitRenderer) (target : Target) (p : Projector Float32)
    (objects : List (Lighting.Object Float32)) :
    (r.render target p objects).Only (Call.IsOfPass (label "lit pass") target) := by
  unfold render
  split
  · exact only_pure r
  · exact (only_making (r.prepare_only target _)).bind fun r => (r.draw_only target p objects).bind
      fun _ => only_pure r

end LitRenderer

namespace GridRenderer

theorem ensurePipeline_only (r : GridRenderer) (attachments : Attachments) :
    (r.ensurePipeline attachments).Only fun c => c.isMaking := by
  unfold ensurePipeline
  split
  · exact only_pure r
  · exact (createLayout_only _).bind fun layout => (createPipeline_only _ layout _).bind fun _ =>
      only_pure _

theorem ensureQuad_only (r : GridRenderer) : r.ensureQuad.Only fun c => c.isMaking := by
  unfold ensureQuad
  split
  · exact only_pure r
  · exact (createBufferWith_only _ _).bind fun _ => (createBufferWith_only _ _).bind fun _ =>
      only_pure _

theorem ensureBindings_only (r : GridRenderer) : r.ensureBindings.Only fun c => c.isMaking := by
  unfold ensureBindings
  split
  · exact only_pure r
  · split
    · exact (createBuffer_only _ _).bind fun _ => (createBindGroup_only _ _ _).bind fun _ =>
        only_pure _
    · exact only_pure r

theorem prepare_only (r : GridRenderer) (attachments : Attachments) :
    (r.prepare attachments).Only fun c => c.isMaking :=
  (r.ensurePipeline_only _).bind fun r => r.ensureQuad_only.bind fun r => r.ensureBindings_only

theorem draw_only (r : GridRenderer) (target : Target) (p : Projector Float32)
    (style : Grid.Style Float32) :
    (r.draw target p style).Only (Call.IsOfPass (label "grid pass") target) := by
  unfold draw
  split
  · refine (only_write _ target _ _).bind fun _ => ?_
    repeat' split
    case h_1 =>
      exact (only_beginPass _ target).bind fun _ => (only_command _ target rfl).bind fun _ =>
        (only_command _ target rfl).bind fun _ => (only_command _ target rfl).bind fun _ =>
          (only_command _ target rfl).bind fun _ => only_command _ target rfl
    all_goals exact only_pure ()
  · exact only_pure ()

theorem render_only (r : GridRenderer) (target : Target) (p : Projector Float32)
    (style : Grid.Style Float32) :
    (r.render target p style).Only (Call.IsOfPass (label "grid pass") target) := by
  unfold render
  split
  · exact (only_making (r.prepare_only _)).bind fun r => (r.draw_only target p style).bind fun _ =>
      only_pure r
  · exact only_pure r

end GridRenderer

/-! ## Passes of a renderer that is sound -/

namespace LitRenderer

theorem Equipment.drawCalls_isCommand (e : Equipment) (places : List Nat) :
    ∀ c ∈ e.drawCalls places, c.isCommand := by
  intro c mem
  obtain ⟨i, -, mem⟩ := List.mem_flatMap.1 mem
  simp only [List.mem_cons, List.not_mem_nil, or_false] at mem
  rcases mem with rfl | rfl <;> rfl

theorem Equipment.addsPass (e : Equipment) (texture : Texture) (m : Missing) (target : Target)
    (p : Projector Float32) {objects : List (Lighting.Object Float32)}
    (some_objects : objects ≠ []) :
    AddsPass (label "lit pass") target (e.making texture m ++ e.passCalls target p objects) := by
  refine .intro (e.making_isMaking texture m) ?_ ⟨e.indexCount, ?_⟩
  · refine List.forall_mem_cons.2 ⟨rfl,
      List.forall_mem_cons.2 ⟨rfl, List.forall_mem_cons.2 ⟨rfl, ?_⟩⟩⟩
    exact e.drawCalls_isCommand _
  · have first : 0 ∈ List.range objects.length :=
      List.mem_range.2 (List.length_pos_iff.2 some_objects)
    have drawn : .drawIndexed e.indexCount ∈ e.drawCalls (List.range objects.length) :=
      List.mem_flatMap.2 ⟨0, first, by simp⟩
    exact List.mem_append_right [_, _, _] drawn

theorem render_addsPassIf {r : LitRenderer} {calls : List Call} (sound : r.Sound calls)
    (target : Target) (p : Projector Float32) (objects : List (Lighting.Object Float32)) (n : Nat) :
    ∃ r' k cs, Makes (r.render target p objects) n r' k cs ∧ r'.Sound (calls ++ cs) ∧
      r'.mesh = r.mesh ∧
      AddsPassIf (objects ≠ [] ∧ r.mesh.indices ≠ []) (label "lit pass") target cs := by
  obtain ⟨r', k, cs, makes, -, sound', steps⟩ := step_makes sound (.render target p objects) n
  refine ⟨r', k, cs, makes, sound', steps.mesh_eq, ?_⟩
  cases steps with
  | idle nothing => exact ⟨fun something => absurd nothing (not_or.2 something), fun _ => rfl⟩
  | drawing some_objects some_mesh _ =>
    exact ⟨fun _ => Equipment.addsPass _ _ _ target p some_objects,
      fun none => absurd ⟨some_objects, some_mesh⟩ none⟩

end LitRenderer

namespace GridRenderer

theorem Equipment.addsPass (e : Equipment) (m : Missing) (target : Target) (p : Projector Float32)
    (style : Grid.Style Float32) :
    AddsPass (label "grid pass") target (e.making m ++ e.passCalls target p style) :=
  .intro (e.making_isMaking m) (by simp [Call.isCommand]) ⟨.ofNat screenIndices.length, by simp⟩

theorem render_addsPassIf {r : GridRenderer} {calls : List Call} (sound : r.Sound calls)
    (target : Target) (p : Projector Float32) (style : Grid.Style Float32) (n : Nat) :
    ∃ r' k cs, Makes (r.render target p style) n r' k cs ∧ r'.Sound (calls ++ cs) ∧
      AddsPassIf target.viewport.isValid (label "grid pass") target cs := by
  by_cases valid : target.viewport.isValid
  · obtain ⟨e, k, -, makes, -, sound'⟩ := render_remakes sound valid p style n
    exact ⟨e.kept, k, _, makes, sound', fun _ => e.addsPass _ target p style,
      fun invalid => absurd valid invalid⟩
  · refine ⟨r, n, [], ?_, sound.append [], fun invalid => absurd invalid valid, fun _ => rfl⟩
    rw [r.render_of_invalid valid]
    exact makes_pure r n

end GridRenderer

end GroundPlane
