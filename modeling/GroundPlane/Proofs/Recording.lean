import Mathlib
import GroundPlane.Trace

/-!
# What recorded computations do

`Makes m n b k cs` says everything about a computation that only appends calls: its result, the
numbers that it takes and the calls that it makes. It composes along `do` blocks (`Makes.bind`), so
that each operation of the device needs one lemma. `Only` is the weaker fact that all its calls are
of one kind. `Creates` is for computations that only make objects, each with a number of its own,
and `Ensures` for those that make what a renderer lacks and keep an invariant of it. `draws` reads
back from a list of calls what every draw finds set on its pass.
-/

namespace GroundPlane

open Gpu

/-! ## Calls that make objects -/

/-- The numbers that a call gives out. -/
def Call.numbers : Call → List Nat
  | .acquire (.ok texture) => [texture]
  | .createEncoder id _ => [id]
  | .createDepth _ depth => [depth.id]
  | .createImage image => [image.id]
  | .createSampler sampler => [sampler.id]
  | .createBuffer buffer => [buffer.id]
  | .createLayout layout => [layout.id]
  | .createPipeline pipeline => [pipeline.id]
  | .createBindGroup group => [group.id]
  | _ => []

/-- The calls give out the numbers from `n` up to `k`, each once and in order. -/
def Numbered (n k : Nat) (cs : List Call) : Prop :=
  n ≤ k ∧ cs.flatMap Call.numbers = List.range' n (k - n)

theorem Numbered.nil (n : Nat) : Numbered n n [] := by
  simp [Numbered]

theorem Numbered.append {n k l : Nat} {cs ds : List Call} (first : Numbered n k cs)
    (next : Numbered k l ds) : Numbered n l (cs ++ ds) := by
  obtain ⟨hnk, hcs⟩ := first
  obtain ⟨hkl, hds⟩ := next
  refine ⟨hnk.trans hkl, ?_⟩
  rw [List.flatMap_append, hcs, hds]
  have start : k = n + 1 * (k - n) := by omega
  have total : l - n = (k - n) + (l - k) := by omega
  rw [total, ← List.range'_append, ← start]

/-- The call makes an object, or fills one that was just made. -/
def Call.isMaking : Call → Bool
  | .createImage _ | .writeImage _ _ | .createSampler _ | .createBuffer _ | .createLayout _
  | .createPipeline _ | .createBindGroup _ => true
  | _ => false

/-- The pass that keeps what earlier passes have drawn. -/
def Pass.over (label : String) (target : Target) : Pass where
  label
  encoder := target.encoder
  surface := target.surface
  color := .load
  depth := .load
  depthBuffer := target.depth

/-- The calls, if they are due. -/
def callsIf (due : Bool) (cs : List Call) : List Call :=
  if due then cs else []

theorem mem_callsIf {due : Bool} {cs : List Call} {c : Call} :
    c ∈ callsIf due cs ↔ due ∧ c ∈ cs := by
  cases due <;> simp [callsIf]

namespace Recording

variable {β γ : Type}

/-! ## Computations that append calls -/

/-- When `n` is the next number, `m` gives `b`, makes the calls `cs` and leaves `k` as the next
number, whatever calls were made before. -/
def Makes (m : Recording β) (n : Nat) (b : β) (k : Nat) (cs : List Call) : Prop :=
  ∀ calls : Array Call, m.run ⟨n, calls⟩ = (b, ⟨k, calls ++ cs.toArray⟩)

theorem makes_pure (b : β) (n : Nat) : Makes (pure b) n b n [] := by
  intro calls
  change (b, Recorder.mk n calls) = (b, Recorder.mk n (calls ++ #[]))
  rw [Array.append_empty]

theorem Makes.bind {m : Recording β} {f : β → Recording γ} {n k l : Nat} {b : β} {c : γ}
    {cs ds : List Call} (first : Makes m n b k cs)
    (next : Makes (f b) k c l ds) : Makes (m >>= f) n c l (cs ++ ds) := by
  intro calls
  have run : (m >>= f).run ⟨n, calls⟩ = (f (m.run ⟨n, calls⟩).1).run (m.run ⟨n, calls⟩).2 := rfl
  rw [run, first calls, next (calls ++ cs.toArray), Array.append_assoc, List.append_toArray cs ds]

theorem makes_record (c : Call) (n : Nat) : Makes (record c) n () n [c] := by
  intro calls
  change ((), Recorder.mk n (calls.push c)) = ((), Recorder.mk n (calls ++ #[c]))
  rw [Array.push_eq_append]

theorem makes_fresh (n : Nat) : Makes fresh n n (n + 1) [] := by
  intro calls
  change (n, Recorder.mk (n + 1) calls) = (n, Recorder.mk (n + 1) (calls ++ #[]))
  rw [Array.append_empty]

/-- What holds at first and is kept by every step holds after any history of steps. It may speak of
the history, the state, the next number and the calls so far. -/
theorem foldlM_invariant {σ ι : Type} {step : σ → ι → Recording σ}
    {P : List ι → σ → Nat → List Call → Prop} {s : σ} {n : Nat} (start : P [] s n [])
    (next : ∀ {history s k calls} (i : ι), P history s k calls → ∃ s' l cs,
      Makes (step s i) k s' l cs ∧ P (history ++ [i]) s' l (calls ++ cs))
    (history : List ι) : ∃ s' k cs, Makes (history.foldlM step s) n s' k cs ∧
    P history s' k cs := by
  induction history using List.reverseRecOn with
  | nil => exact ⟨s, n, [], makes_pure s n, start⟩
  | append_singleton history i ih =>
    obtain ⟨s₁, k, cs, makes, holds⟩ := ih
    obtain ⟨s₂, l, ds, stepped, holds'⟩ := next i holds
    refine ⟨s₂, l, cs ++ ds, ?_, holds'⟩
    rw [List.foldlM_append]
    refine makes.bind ?_
    have last := stepped.bind (makes_pure s₂ l)
    rw [List.append_nil] at last
    exact last

/-! ## Computations that make calls of one kind -/

/-- All calls that `m` makes satisfy `P`. -/
def Only (P : Call → Prop) (m : Recording β) : Prop :=
  ∀ r : Recorder, ∃ cs : List Call, (m.run r).2.calls = r.calls ++ cs.toArray ∧ ∀ c ∈ cs, P c

variable {P : Call → Prop}

theorem only_pure (b : β) : Only P (pure b) := by
  intro r
  exact ⟨[], Array.append_empty.symm, List.forall_mem_nil _⟩

theorem only_record {c : Call} (holds : P c) : Only P (record c) := by
  intro r
  exact ⟨[c], Array.push_eq_append, List.forall_mem_singleton.2 holds⟩

theorem only_fresh : Only P fresh := by
  intro r
  exact ⟨[], Array.append_empty.symm, List.forall_mem_nil _⟩

theorem Only.mono {Q : Call → Prop} {m : Recording β} (only : Only P m) (weaker : ∀ c, P c → Q c) :
    Only Q m := by
  intro r
  obtain ⟨cs, calls, holds⟩ := only r
  exact ⟨cs, calls, fun c hc => weaker c (holds c hc)⟩

theorem Only.bind {m : Recording β} {f : β → Recording γ} (first : Only P m)
    (next : ∀ b, Only P (f b)) : Only P (m >>= f) := by
  intro r
  obtain ⟨cs, calls, holds⟩ := first r
  obtain ⟨ds, later, holds'⟩ := next (m.run r).1 (m.run r).2
  refine ⟨cs ++ ds, ?_, fun c hc => (List.mem_append.1 hc).elim (holds c) (holds' c)⟩
  change ((f (m.run r).1).run (m.run r).2).2.calls = _
  rw [later, calls, Array.append_assoc, List.append_toArray cs ds]

/-! ## Computations that make objects -/

/-- `m` makes objects, and does nothing else. -/
structure Creates (m : Recording β) (n : Nat) (b : β) (k : Nat) (cs : List Call) : Prop where
  makes : Makes m n b k cs
  numbered : Numbered n k cs
  making : ∀ c ∈ cs, c.isMaking

theorem creates_pure (b : β) (n : Nat) : Creates (pure b) n b n [] where
  makes := makes_pure b n
  numbered := .nil n
  making := by simp

theorem Creates.bind {m : Recording β} {f : β → Recording γ} {n k l : Nat} {b : β} {c : γ}
    {cs ds : List Call} (first : Creates m n b k cs)
    (next : Creates (f b) k c l ds) : Creates (m >>= f) n c l (cs ++ ds) where
  makes := first.makes.bind next.makes
  numbered := first.numbered.append next.numbered
  making c hc := (List.mem_append.1 hc).elim (first.making c) (next.making c)

theorem createBuffer_creates (label : String) (size n : Nat) :
    ∃ b k, b.label = label ∧ b.size = size ∧
    Creates (createBuffer label size) n b k [.createBuffer b] := by
  refine ⟨⟨n, label, size, none⟩, n + 1, rfl, rfl, ?_, ?_, ?_⟩
  · exact (makes_fresh n).bind <| (makes_record _ _).bind <| makes_pure _ _
  · simp [Numbered, Call.numbers]
  · simp [Call.isMaking]

theorem createBufferWith_creates (label : String) (contents : List UInt8) (n : Nat) :
    ∃ b k, b.label = label ∧ b.contents = some contents ∧
      Creates (createBufferWith label contents) n b k [.createBuffer b] := by
  refine ⟨⟨n, label, (contents.length + 3) / 4 * 4, some contents⟩, n + 1, rfl, rfl, ?_, ?_, ?_⟩
  · exact (makes_fresh n).bind <| (makes_record _ _).bind <| makes_pure _ _
  · simp [Numbered, Call.numbers]
  · simp [Call.isMaking]

theorem createLayout_creates (label : String) (n : Nat) :
    ∃ l k, Creates (createLayout label) n l k [.createLayout l] := by
  refine ⟨⟨n, label⟩, n + 1, ?_, ?_, ?_⟩
  · exact (makes_fresh n).bind <| (makes_record _ _).bind <| makes_pure _ _
  · simp [Numbered, Call.numbers]
  · simp [Call.isMaking]

theorem createPipeline_creates (label : String) (layout : GroupLayout) (attachments : Attachments)
    (n : Nat) :
    ∃ p k, p.layout = layout ∧ p.attachments = attachments ∧
      Creates (createPipeline label layout attachments) n p k [.createPipeline p] := by
  refine ⟨⟨n, label, attachments, layout⟩, n + 1, rfl, rfl, ?_, ?_, ?_⟩
  · exact (makes_fresh n).bind <| (makes_record _ _).bind <| makes_pure _ _
  · simp [Numbered, Call.numbers]
  · simp [Call.isMaking]

theorem createBindGroup_creates (label : String) (layout : GroupLayout) (bindings : List Binding)
    (n : Nat) :
    ∃ g k, g.layout = layout ∧ g.bindings = bindings ∧
      Creates (createBindGroup label layout bindings) n g k [.createBindGroup g] := by
  refine ⟨⟨n, label, layout, bindings⟩, n + 1, rfl, rfl, ?_, ?_, ?_⟩
  · exact (makes_fresh n).bind <| (makes_record _ _).bind <| makes_pure _ _
  · simp [Numbered, Call.numbers]
  · simp [Call.isMaking]

theorem createSampler_creates (n : Nat) :
    ∃ s k, Creates createSampler n s k [.createSampler s] := by
  refine ⟨⟨n⟩, n + 1, ?_, ?_, ?_⟩
  · exact (makes_fresh n).bind <| (makes_record _ _).bind <| makes_pure _ _
  · simp [Numbered, Call.numbers]
  · simp [Call.isMaking]

theorem uploadImage_creates (label : String) (format : TextureFormat) (source : Texture) (n : Nat) :
    ∃ i k, i.format = format ∧ i.size = source.extent ∧
      Creates (uploadImage label format source) n i k
        [.createImage i, .writeImage i source.upload] := by
  refine ⟨⟨n, label, source.extent, 1, 1, format, [.sampled, .copyTarget]⟩, n + 1, rfl, rfl,
    ?_, ?_, ?_⟩
  · exact (makes_fresh n).bind <| (makes_record _ _).bind <| (makes_record _ _).bind <|
      makes_pure _ _
  · simp [Numbered, Call.numbers]
  · simp [Call.isMaking]

section Only

/-- An object that is made and recorded takes one call, which makes it. -/
theorem only_make {make : Nat → β} {call : Nat → Call} (making : ∀ id, (call id).isMaking) :
    Only (fun c => c.isMaking) (do
      let id ← fresh
      record (call id)
      return make id) :=
  only_fresh.bind fun _ => (only_record (making _)).bind fun _ => only_pure _

variable (label : String) (layout : GroupLayout)

theorem createBuffer_only (size : Nat) : Only (fun c => c.isMaking) (createBuffer label size) :=
  only_make fun _ => rfl

theorem createBufferWith_only (contents : List UInt8) :
    Only (fun c => c.isMaking) (createBufferWith label contents) :=
  only_make fun _ => rfl

theorem createLayout_only : Only (fun c => c.isMaking) (createLayout label) :=
  only_make fun _ => rfl

theorem createPipeline_only (attachments : Attachments) :
    Only (fun c => c.isMaking) (createPipeline label layout attachments) :=
  only_make fun _ => rfl

theorem createBindGroup_only (bindings : List Binding) :
    Only (fun c => c.isMaking) (createBindGroup label layout bindings) :=
  only_make fun _ => rfl

theorem createSampler_only : Only (fun c => c.isMaking) createSampler :=
  only_make fun _ => rfl

theorem uploadImage_only (format : TextureFormat) (source : Texture) :
    Only (fun c => c.isMaking) (uploadImage label format source) := by
  have making {c : Call} (making : c.isMaking) : Only (fun c => c.isMaking) (record c) :=
    only_record making
  exact only_fresh.bind fun _ => (making rfl).bind fun _ => (making rfl).bind fun _ => only_pure _

end Only

/-! ## Computations that make what is missing -/

/-- No pipeline is kept for these attachments. -/
def lacksPipeline (key : Option Attachments) (pipeline : Option Pipeline)
    (attachments : Attachments) : Bool :=
  !decide (key = some attachments ∧ pipeline.isSome)

theorem lacksPipeline_of_kept {key : Option Attachments} {pipeline : Option Pipeline}
    {attachments : Attachments} (kept : key = some attachments ∧ pipeline.isSome) :
    lacksPipeline key pipeline attachments = false := by
  rw [lacksPipeline, decide_eq_true kept]
  rfl

theorem lacksPipeline_of_not_kept {key : Option Attachments} {pipeline : Option Pipeline}
    {attachments : Attachments} (kept : ¬ (key = some attachments ∧ pipeline.isSome)) :
    lacksPipeline key pipeline attachments = true := by
  rw [lacksPipeline, decide_eq_false kept]
  rfl

variable {σ : Type} {Sound : σ → List Call → Prop} {calls : List Call}

/-- After `calls`, the operation `m` leaves the renderer `r`, which is sound, by calls that only
make objects. -/
structure Ensures (Sound : σ → List Call → Prop) (calls : List Call) (m : Recording σ) (n : Nat)
    (r : σ) (k : Nat) (cs : List Call) : Prop extends Creates m n r k cs where
  sound : Sound r (calls ++ cs)

/-- What is kept needs no calls. -/
theorem Ensures.kept {m : Recording σ} {r : σ} (h : m = pure r) (sound : Sound r calls) (n : Nat) :
    Ensures Sound calls m n r n [] where
  toCreates := h ▸ creates_pure _ n
  sound := by rwa [List.append_nil]

theorem Ensures.bind {m : Recording σ} {f : σ → Recording σ} {r₁ r₂ : σ} {n k l : Nat}
    {cs ds : List Call} (first : Ensures Sound calls m n r₁ k cs)
    (next : Ensures Sound (calls ++ cs) (f r₁) k r₂ l ds) :
    Ensures Sound calls (m >>= f) n r₂ l (cs ++ ds) where
  toCreates := first.toCreates.bind next.toCreates
  sound := by
    rw [← List.append_assoc]
    exact next.sound

end Recording

/-! ## What draws read -/

/-- The image that is bound, if one is. -/
def Gpu.Binding.image? : Binding → Option Image
  | .image i => some i
  | _ => none

/-- What is set on a pass. -/
structure Bound where
  pipeline : Option Pipeline
  group : Option BindGroup
  offsets : List UInt32
  vertices : Option Buffer
  indices : Option Buffer
deriving DecidableEq

/-- A draw: how many indices it takes, and what is set on its pass. -/
structure Draw where
  bound : Bound
  count : UInt32
deriving DecidableEq

/-- Nothing is set when a pass begins. -/
def Bound.none : Bound :=
  ⟨.none, .none, [], .none, .none⟩

/-- What is set after a call. -/
def Bound.after (b : Bound) : Call → Bound
  | .beginPass _ => .none
  | .setPipeline p => { b with pipeline := some p }
  | .setBindGroup 0 g offsets => { b with group := some g, offsets }
  | .setVertexBuffer 0 v => { b with vertices := some v }
  | .setIndexBuffer i => { b with indices := some i }
  | _ => b

/-- The draws among some calls, in order, if `b` is set at first. -/
def drawsFrom (b : Bound) : List Call → List Draw
  | [] => []
  | .drawIndexed count :: rest => ⟨b, count⟩ :: drawsFrom b rest
  | c :: rest => drawsFrom (b.after c) rest

/-- The draws among some calls, in order. -/
def draws (cs : List Call) : List Draw :=
  drawsFrom .none cs

theorem drawsFrom_append_of_isMaking {cs : List Call} (making : ∀ c ∈ cs, c.isMaking) (b : Bound)
    (rest : List Call) : drawsFrom b (cs ++ rest) = drawsFrom b rest := by
  induction cs with
  | nil => rfl
  | cons c cs ih =>
    have head : c.isMaking := making c List.mem_cons_self
    have skip : drawsFrom b (c :: (cs ++ rest)) = drawsFrom b (cs ++ rest) := by
      cases c <;> cases head <;> rfl
    rw [List.cons_append, skip]
    exact ih fun d hd => making d (List.mem_cons_of_mem c hd)

/-- The draws of later calls find what the earlier calls have left set. -/
theorem drawsFrom_append (b : Bound) (cs ds : List Call) :
    drawsFrom b (cs ++ ds) = drawsFrom b cs ++ drawsFrom (cs.foldl Bound.after b) ds := by
  induction cs generalizing b with
  | nil => rfl
  | cons c cs ih => cases c <;> simp [drawsFrom, Bound.after, ih]

/-- The images that a draw can sample. -/
def Draw.images (d : Draw) : List Image :=
  d.bound.group.toList.flatMap fun g => g.bindings.filterMap Binding.image?

/-- The image that a call writes to, with what is written. -/
def Call.upload? : Call → Option (Image × Upload)
  | .writeImage i u => some (i, u)
  | _ => none

/-- The buffer that a call writes to, with the offset and the bytes. -/
def Call.bufferWrite? : Call → Option (Buffer × Nat × List UInt8)
  | .writeBuffer buffer offset bytes => some (buffer, offset, bytes)
  | _ => none

theorem filter_isMaking_append {cs ds : List Call} (making : ∀ c ∈ cs, c.isMaking)
    (none : ds.filter Call.isMaking = []) : (cs ++ ds).filter Call.isMaking = cs := by
  rw [List.filter_append, List.filter_eq_self.2 making, none, List.append_nil]

theorem filterMap_bufferWrite_of_isMaking {cs : List Call} (making : ∀ c ∈ cs, c.isMaking) :
    cs.filterMap Call.bufferWrite? = [] := by
  rw [List.filterMap_eq_nil_iff]
  intro c hc
  have head := making c hc
  cases c <;> cases head <;> rfl

end GroundPlane
