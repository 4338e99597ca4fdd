import Mathlib
import GroundPlane.Proofs.ObjectBlocks

/-!
# A lit renderer makes an object again only when it must

What a drawing makes can be told from the calls before it (`due`): a pipeline when the attachments
have changed since the last drawing, an image when the texture has been set since then, and so on.
This holds because what is kept `Reflects` the history. The shared buffer is made anew when it is
too small; its capacity is a power of two that grows each time (`Grown`), so that this happens a
logarithmic number of times (`countP_makesObjects_le`).
-/

namespace GroundPlane

open Gpu Recording

/-- The call makes a shared buffer. -/
def Call.makesObjects : Call → Bool
  | .createBuffer b => b.label = label "lit object ubo"
  | _ => false

theorem Call.isMaking_of_makesObjects {c : Call} (h : c.makesObjects) : c.isMaking := by
  cases c with
  | createBuffer b => rfl
  | _ => cases h

namespace LitRenderer

/-! ## What the history tells -/

/-- The attachments of a call that draws something of the mesh. -/
def Op.drawn? (mesh : Mesh Float32) : Op → Option Attachments
  | .setTexture _ => none
  | .render target _ objects =>
      if objects = [] ∨ mesh.indices = [] then none else some target.attachments

/-- The number of objects of a call. -/
def Op.count : Op → Nat
  | .setTexture _ => 0
  | .render _ _ objects => objects.length

/-- The attachments of the last drawing. -/
def lastDrawn? (mesh : Mesh Float32) (history : List Op) : Option Attachments :=
  (history.filterMap (Op.drawn? mesh)).getLast?

/-- The texture has been set after the last drawing. -/
def setSince (mesh : Mesh Float32) (history : List Op) : Bool :=
  (history.rtakeWhile fun op => (op.drawn? mesh).isNone).any fun op => op.texture?.isSome

/-- What a drawing has to make after a history, if the shared buffer `grows`. -/
def due (mesh : Mesh Float32) (history : List Op) (attachments : Attachments) (grows : Bool) :
    Missing :=
  let first := (lastDrawn? mesh history).isNone
  let pipeline : Bool := lastDrawn? mesh history ≠ some attachments
  let image := first || setSince mesh history
  { pipeline, mesh := first, sampler := first, image, objects := grows,
    group := pipeline || image || grows }

section History

variable {mesh : Mesh Float32} {op : Op} (history : List Op)

theorem lastDrawn?_concat_of_none (h : op.drawn? mesh = none) :
    lastDrawn? mesh (history ++ [op]) = lastDrawn? mesh history := by
  simp [lastDrawn?, h]

theorem lastDrawn?_concat_of_some {attachments : Attachments}
    (h : op.drawn? mesh = some attachments) :
    lastDrawn? mesh (history ++ [op]) = some attachments := by
  simp [lastDrawn?, h]

theorem setSince_concat_of_none (h : op.drawn? mesh = none) :
    setSince mesh (history ++ [op]) = (op.texture?.isSome || setSince mesh history) := by
  simp [setSince, h, Bool.or_comm]

theorem setSince_concat_of_some {attachments : Attachments}
    (h : op.drawn? mesh = some attachments) : setSince mesh (history ++ [op]) = false := by
  simp [setSince, h]

end History

/-- What is kept tells the attachments of the last drawing and whether the texture has been set
since; there is nothing before the first drawing. -/
structure Reflects (r : LitRenderer) (history : List Op) : Prop where
  key : r.key = lastDrawn? r.mesh history
  pipeline : r.pipeline.isSome = (lastDrawn? r.mesh history).isSome
  meshBuffers : r.lacksMesh = (lastDrawn? r.mesh history).isNone
  sampler : r.sampler.isNone = (lastDrawn? r.mesh history).isNone
  group : r.group.isNone = (lastDrawn? r.mesh history).isNone
  upload : r.needsUpload = ((lastDrawn? r.mesh history).isNone || setSince r.mesh history)

theorem reflects_ofMesh (mesh : Mesh Float32) (texture : Texture) :
    (ofMesh mesh texture).Reflects [] := by
  constructor <;> rfl

theorem Reflects.missing {r : LitRenderer} {history : List Op} (h : r.Reflects history)
    (attachments : Attachments) (required : Nat) :
    r.missing attachments required = due r.mesh history attachments (r.capacity < required) := by
  unfold LitRenderer.missing lacksPipeline due
  rw [h.key, h.pipeline, h.meshBuffers, h.sampler, h.group, h.upload]
  cases lastDrawn? r.mesh history <;> simp

/-- Every call keeps the renderer in line with the history. -/
theorem Reflects.step {r r' : LitRenderer} {history : List Op} {op : Op} {cs : List Call}
    (h : r.Reflects history) (steps : r.Steps op r' cs) : r'.Reflects (history ++ [op]) := by
  cases steps with
  | setTexture texture =>
    have silent : (Op.setTexture texture).drawn? (r.setTexture texture).mesh = none := rfl
    constructor <;> rw [lastDrawn?_concat_of_none history silent]
    · exact h.key
    · exact h.pipeline
    · exact h.meshBuffers
    · exact h.sampler
    · exact h.group
    · rw [setSince_concat_of_none history silent]
      simp [needsUpload, LitRenderer.setTexture, Op.texture?]
  | @idle target p objects nothing =>
    have silent : (Op.render target p objects).drawn? r.mesh = none := if_pos nothing
    constructor <;> rw [lastDrawn?_concat_of_none history silent]
    · exact h.key
    · exact h.pipeline
    · exact h.meshBuffers
    · exact h.sampler
    · exact h.group
    · rw [setSince_concat_of_none history silent]
      exact h.upload
  | @drawing target p objects e some_objects some_mesh suits =>
    have drawn : (Op.render target p objects).drawn? (r.equip e).mesh = some target.attachments :=
      if_neg (not_or.2 ⟨some_objects, some_mesh⟩)
    constructor <;> rw [lastDrawn?_concat_of_some history drawn]
    · exact congrArg some suits.attachments_eq
    · rfl
    · rfl
    · rfl
    · rfl
    · rw [setSince_concat_of_some history drawn]
      rfl

/-! ## The capacity of the shared buffer -/

theorem objectCapacity_mono {m n : Nat} (h : m ≤ n) : objectCapacity m ≤ objectCapacity n := by
  obtain ⟨⟨power, room⟩, -⟩ := isLeast_objectCapacity n
  exact (isLeast_objectCapacity m).2 ⟨power, (max_le_max_left 8 h).trans room⟩

/-- A larger power of two is at least twice as large. -/
theorem two_mul_le_of_isPowerOfTwo {m n : Nat} (hm : m.isPowerOfTwo) (hn : n.isPowerOfTwo)
    (h : m < n) : 2 * m ≤ n := by
  obtain ⟨i, rfl⟩ := hm
  obtain ⟨j, rfl⟩ := hn
  rw [← pow_succ']
  exact Nat.pow_le_pow_right (by decide) ((Nat.pow_lt_pow_iff_right (by decide)).1 h)

theorem Equipment.Suits.capacity {e : Equipment} {r : LitRenderer} {target : Target}
    {required : Nat} (suits : e.Suits r target required) :
    (r.equip e).capacity =
      if r.capacity < required then objectCapacity required else r.capacity := by
  have objects := suits.objects
  split_ifs at objects ⊢ with small
  · exact objects.capacity_eq
  · exact objects.capacity_eq.symm

theorem Steps.capacity_le {r r' : LitRenderer} {op : Op} {cs : List Call}
    (steps : r.Steps op r' cs) : r.capacity ≤ r'.capacity := by
  cases steps with
  | setTexture texture => exact le_rfl
  | idle nothing => exact le_rfl
  | drawing some_objects some_mesh suits =>
    rw [suits.capacity]
    split_ifs with small
    · exact small.le.trans (le_objectCapacity _)
    · exact le_rfl

theorem perform_capacity_le {r : LitRenderer} {calls : List Call} (sound : r.Sound calls)
    (history : List Op) (n : Nat) :
    ∃ r' k cs, Makes (r.perform history) n r' k cs ∧ r.capacity ≤ r'.capacity := by
  obtain ⟨r', k, cs, makes, -, -, larger⟩ :=
    perform_invariant (P := fun _ r' _ => r.capacity ≤ r'.capacity) sound le_rfl
      (fun holds steps => holds.trans steps.capacity_le) history n
  exact ⟨r', k, cs, makes, larger⟩

theorem Equipment.not_isMaking_passCalls (e : Equipment) (target : Target) (p : Projector Float32)
    (objects : List (Lighting.Object Float32)) :
    ∀ c ∈ e.passCalls target p objects, ¬ c.isMaking := by
  intro c hc
  simp only [passCalls, drawCalls, List.mem_append, List.mem_cons, List.mem_flatMap,
    List.not_mem_nil, or_false] at hc
  rcases hc with (rfl | rfl | rfl | rfl | rfl) | ⟨i, -, rfl | rfl⟩ <;> exact Bool.false_ne_true

/-- The buffers of the mesh are told from the shared buffer by their labels. -/
theorem Equipment.Suits.countP_making {e : Equipment} {r : LitRenderer} {target : Target}
    {required : Nat} (suits : e.Suits r target required) (attachments : Attachments) :
    (e.making r.texture (r.missing attachments required)).countP Call.makesObjects =
      if r.capacity < required then 1 else 0 := by
  have mesh : (callsIf r.lacksMesh [.createBuffer e.vertices, .createBuffer e.indices]).countP
      Call.makesObjects = 0 := by
    cases lacks : r.lacksMesh with
    | false => rfl
    | true =>
      obtain ⟨vertices, indices⟩ := suits.mesh_labels lacks
      simp [callsIf, Call.makesObjects, vertices, indices, label]
  have objects : (callsIf (r.capacity < required) [.createBuffer e.uniforms]).countP
      Call.makesObjects = if r.capacity < required then 1 else 0 := by
    have fits := suits.objects
    split_ifs at fits ⊢ with small
    · simp [callsIf, Call.makesObjects, small, fits.label_eq]
    · simp [callsIf, small]
  have other {due : Bool} {cs : List Call} (h : cs.countP Call.makesObjects = 0) :
      (callsIf due cs).countP Call.makesObjects = 0 := by
    cases due
    · rfl
    · exact h
  simp only [making, missing, List.countP_flatten, List.map_cons, List.map_nil, List.sum_cons,
    List.sum_nil, mesh]
  rw [objects, other rfl, other rfl, other rfl, other rfl]
  simp

/-- The shared buffer has at least doubled whenever it was made anew, and has not outgrown what was
drawn. -/
structure Grown (r : LitRenderer) (history : List Op) (calls : List Call) : Prop where
  doubled : r.capacity = 0 ∧ calls.countP Call.makesObjects = 0 ∨
    r.capacity.isPowerOfTwo ∧ 2 ^ (calls.countP Call.makesObjects + 2) ≤ r.capacity
  bounded : ∀ most, (∀ op ∈ history, op.count ≤ most) → r.capacity ≤ objectCapacity most

theorem grown_ofMesh (mesh : Mesh Float32) (texture : Texture) :
    (ofMesh mesh texture).Grown [] [] where
  doubled := .inl ⟨rfl, rfl⟩
  bounded _ _ := Nat.zero_le _

theorem Grown.step {r r' : LitRenderer} {history : List Op} {calls : List Call} {op : Op}
    {cs : List Call} (h : r.Grown history calls)
    (steps : r.Steps op r' cs) : r'.Grown (history ++ [op]) (calls ++ cs) := by
  have earlier {most : Nat} (bound : ∀ o ∈ history ++ [op], o.count ≤ most) :
      r.capacity ≤ objectCapacity most :=
    h.bounded most fun o ho => bound o (List.mem_append_left _ ho)
  cases steps with
  | setTexture texture =>
    rw [List.append_nil]
    exact ⟨h.doubled, fun most bound => earlier bound⟩
  | idle nothing =>
    rw [List.append_nil]
    exact ⟨h.doubled, fun most bound => earlier bound⟩
  | @drawing target p objects e some_objects some_mesh suits =>
    have made : (calls ++ (e.making r.texture (r.missing target.attachments objects.length) ++
        e.passCalls target p objects)).countP Call.makesObjects =
          calls.countP Call.makesObjects + if r.capacity < objects.length then 1 else 0 := by
      have pass : (e.passCalls target p objects).countP Call.makesObjects = 0 :=
        List.countP_eq_zero.2 fun c hc h =>
          e.not_isMaking_passCalls target p objects c hc (Call.isMaking_of_makesObjects h)
      rw [List.countP_append, List.countP_append, suits.countP_making, pass, Nat.add_zero]
    constructor
    · rw [made, suits.capacity]
      split_ifs with small
      · obtain ⟨⟨power, reaches⟩, -⟩ := isLeast_objectCapacity objects.length
        refine .inr ⟨power, ?_⟩
        rcases h.doubled with ⟨-, none⟩ | ⟨old, doubled⟩
        · rw [none]
          exact (le_max_left _ _).trans reaches
        · rw [Nat.add_right_comm, pow_succ']
          exact (Nat.mul_le_mul_left 2 doubled).trans
            (two_mul_le_of_isPowerOfTwo old power (small.trans_le (le_objectCapacity _)))
      · exact h.doubled
    · intro most bound
      rw [suits.capacity]
      split_ifs with small
      · exact objectCapacity_mono (bound (.render target p objects) (by simp))
      · exact earlier bound

/-- The shared buffer is made once, and once more each time that the number of objects outgrows a
power of two. -/
theorem Grown.countP_makesObjects_le {r : LitRenderer} {history : List Op} {calls : List Call}
    (h : r.Grown history calls) {most : Nat} (bound : ∀ op ∈ history, op.count ≤ most) :
    calls.countP Call.makesObjects ≤ 1 + Nat.clog 2 (max 8 most ⌈/⌉ 8) := by
  rcases h.doubled with ⟨-, none⟩ | ⟨-, doubled⟩
  · rw [none]
    exact Nat.zero_le _
  · have enough : max 8 most ≤ 8 * 2 ^ Nat.clog 2 (max 8 most ⌈/⌉ 8) :=
      (ceilDiv_le_iff_le_mul (by decide)).1 (Nat.le_pow_clog (by decide) _)
    have total :
        2 ^ (calls.countP Call.makesObjects + 2) ≤ 2 ^ (3 + Nat.clog 2 (max 8 most ⌈/⌉ 8)) := by
      refine (doubled.trans (h.bounded most bound)).trans
        ((isLeast_objectCapacity most).2 ⟨⟨_, rfl⟩, ?_⟩)
      rw [pow_add]
      exact enough
    have exponents := (Nat.pow_le_pow_iff_right (by decide)).1 total
    omega

/-- A renderer makes an object again only when it must. After any history, a drawing of at least one
object of a mesh that is not empty makes exactly what is due, and any other drawing makes nothing.
The shared buffer grows when there are more objects than it has room for, to the least power of two
that is at least eight and enough for them; it never shrinks, and it is made a logarithmic number of
times in the greatest number of objects. -/
theorem render_remakes_only_outdated (mesh : Mesh Float32) (texture : Texture) (history : List Op)
    (device : Recorder) (target : Target) (p : Projector Float32)
    (objects : List (Lighting.Object Float32)) :
    let before := ((ofMesh mesh texture).perform history).run device
    let after := (before.1.render target p objects).run before.2
    ∃ earlier calls : List Call,
      before.2.calls = device.calls ++ earlier.toArray ∧
      after.2.calls = before.2.calls ++ calls.toArray ∧
      (if objects = [] ∨ mesh.indices = [] then after = before
      else ∃ e : Equipment,
        e.Suits before.1 target objects.length ∧ after.1 = before.1.equip e ∧
        calls.filter Call.isMaking =
          e.making before.1.texture
            (due mesh history target.attachments (before.1.capacity < objects.length)) ∧
        if before.1.capacity < objects.length then
          IsLeast {c : Nat | c.isPowerOfTwo ∧ max 8 objects.length ≤ c} after.1.capacity
        else after.1.capacity = before.1.capacity) ∧
      (∀ more, before.1.capacity ≤ ((before.1.perform more).run before.2).1.capacity) ∧
      ∀ most, (∀ op ∈ history, op.count ≤ most) →
        earlier.countP Call.makesObjects ≤ 1 + Nat.clog 2 (max 8 most ⌈/⌉ 8) := by
  intro before after
  obtain ⟨earlier, calls, hb, ha, -, sound, -, same, ⟨reflects, grown⟩, drawn⟩ :=
    render_after_perform (P := fun history r cs => r.Reflects history ∧ r.Grown history cs)
      ⟨reflects_ofMesh mesh texture, grown_ofMesh mesh texture⟩
      (fun ⟨reflects, grown⟩ steps => ⟨reflects.step steps, grown.step steps⟩)
      before after rfl rfl
  have grows (more : List Op) :
      before.1.capacity ≤ ((before.1.perform more).run before.2).1.capacity := by
    obtain ⟨r', l, cs, makes, larger⟩ := perform_capacity_le sound more before.2.next
    rw [show (before.1.perform more).run before.2 = _ from makes before.2.calls]
    exact larger
  refine ⟨earlier, calls, hb, ha, ?_, grows, fun most => grown.countP_makesObjects_le⟩
  by_cases nothing : objects = [] ∨ mesh.indices = []
  · rw [if_pos nothing] at drawn ⊢
    exact drawn
  · rw [if_neg nothing] at drawn ⊢
    obtain ⟨e, suits, equipped, rfl⟩ := drawn
    refine ⟨e, suits, equipped, ?_, ?_⟩
    · rw [← same, ← reflects.missing]
      exact filter_isMaking_append (e.making_isMaking _ _)
        (List.filter_eq_nil_iff.2 (e.not_isMaking_passCalls target p objects))
    · rw [equipped, suits.capacity]
      split_ifs with small
      · exact isLeast_objectCapacity objects.length
      · rfl

end LitRenderer

end GroundPlane
