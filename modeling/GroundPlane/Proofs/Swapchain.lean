import Mathlib
import GroundPlane.Proofs.Drawing
import GroundPlane.Proofs.Frames

/-!
# The surface, its depth attachment and the size of the window agree

The size of a window is kept four times: as the size that was last reported, in the configuration,
in the last call that configured the surface, and in the depth attachment. `stays_consistent` says
how they agree after any history of resizes, surface errors and frames, and what follows for the
next frame.
-/

namespace GroundPlane

open Gpu Session

/-! ## The configuration among calls -/

/-- The configuration that a call gives to the surface. -/
def Call.configure? : Call → Option SurfaceConfig
  | .configure config => some config
  | _ => none

/-- The call asks the surface for its next texture. -/
def Call.isAcquire : Call → Bool
  | .acquire _ => true
  | _ => false

/-- The configuration that the surface has after some calls. -/
def lastConfigured (calls : List Call) : Option SurfaceConfig :=
  (calls.filterMap Call.configure?).getLast?

theorem Call.eq_configure {c : Call} {config : SurfaceConfig} (h : c.configure? = some config) :
    c = .configure config := by
  cases c <;> cases h
  rfl

theorem Call.Within.isAcquire {c : Call} {target : Target} (within : c.Within target) :
    c.isAcquire = false := by
  cases c
  case acquire => exact within.elim
  all_goals rfl

theorem lastConfigured_append (cs ds : List Call) :
    lastConfigured (cs ++ ds) = (lastConfigured ds).or (lastConfigured cs) := by
  rw [lastConfigured, List.filterMap_append, List.getLast?_append]
  rfl

/-- Configuring the surface as it is changes nothing. -/
theorem lastConfigured_again {cs ds : List Call} {config : SurfaceConfig}
    (old : lastConfigured cs = some config)
    (again : ∀ k, .configure k ∈ ds → k = config) : lastConfigured (cs ++ ds) = some config := by
  rw [lastConfigured_append, old]
  cases last : lastConfigured ds with
  | none => rfl
  | some k =>
    obtain ⟨c, hc, configures⟩ := List.mem_filterMap.1 (List.mem_of_getLast? last)
    rw [Call.eq_configure configures] at hc
    rw [again k hc]
    rfl

/-! ## Consistency -/

/-- What holds of a swapchain after some calls, if it was made with given options and had `initial`
as its first configuration. -/
structure Swapchain.Consistent (options : Options) (initial : SurfaceConfig) (s : Swapchain)
    (calls : List Call) : Prop where
  width : 1 ≤ s.config.size.width
  height : 1 ≤ s.config.size.height
  depthSize : s.depth.texture.size = s.config.size
  depthFormat : s.depth.texture.format = options.depthFormat
  configured : lastConfigured calls = some s.config
  unchanged : s.config = { initial with size := s.config.size }
  tracked : s.size.isPositive → s.size = s.config.size

theorem one_le_of_ne_zero {n : UInt32} (hn : n ≠ 0) : 1 ≤ n := by
  rw [UInt32.le_iff_toNat_le]
  have : n.toNat ≠ 0 := fun zero => hn (UInt32.toNat_inj.1 zero)
  change 1 ≤ n.toNat
  omega

namespace Size

variable {size : Size}

theorem isPositive_iff : size.isPositive ↔ size.width ≠ 0 ∧ size.height ≠ 0 := by
  simp [isPositive]

theorem max_one (positive : size.isPositive) :
    ({ width := max 1 size.width, height := max 1 size.height } : Size) = size := by
  obtain ⟨width, height⟩ := isPositive_iff.1 positive
  rw [show max 1 size.width = size.width from if_pos (one_le_of_ne_zero width),
    show max 1 size.height = size.height from if_pos (one_le_of_ne_zero height)]

end Size

namespace Swapchain

variable {options : Options} {initial : SurfaceConfig} {s : Swapchain} {calls cs : List Call}
  {h h' : Host}

theorem Consistent.append (consistent : s.Consistent options initial calls)
    (again : ∀ k, .configure k ∈ cs → k = s.config) : s.Consistent options initial (calls ++ cs) :=
  { consistent with configured := lastConfigured_again consistent.configured again }

/-- A swapchain that has just been configured for a size with area. -/
theorem consistent_of_configured {size : Size} (positive : size.isPositive) {config : SurfaceConfig}
    (fits : config.size = size) (same : config = { initial with size }) {depth : DepthBuffer}
    (made : depth.texture = depthTexture options.depthFormat size) :
    Consistent options initial ⟨config, depth, size⟩
      (calls ++ [.configure config, .createDepth (label "depth") depth]) where
  width := by
    rw [fits]
    exact one_le_of_ne_zero (Size.isPositive_iff.1 positive).1
  height := by
    rw [fits]
    exact one_le_of_ne_zero (Size.isPositive_iff.1 positive).2
  depthSize := by
    rw [fits, made]
    exact Size.max_one positive
  depthFormat := by
    rw [made]
    rfl
  configured := by
    rw [lastConfigured_append]
    rfl
  unchanged := by rw [fits, same]
  tracked _ := fits.symm

theorem createDepth_performs (format : TextureFormat) (size : Size) (h : Host) :
    ∃ depth h', depth.texture = depthTexture format size ∧
      Performs (createDepth format size) h depth h' [.createDepth (label "depth") depth] :=
  ⟨_, _, rfl, rfl, Array.push_eq_append⟩

theorem resize_performs (s : Swapchain) (size : Size) (h : Host) :
    ∃ s' h' cs, Performs (s.resize size) h s' h' cs ∧
      ∀ options initial calls, s.Consistent options initial calls →
        s'.Consistent options initial (calls ++ cs) := by
  unfold resize
  by_cases positive : size.isPositive
  · have configured := performs_record (.configure { s.config with size }) h
    obtain ⟨depth, h₁, made, created⟩ := createDepth_performs s.depth.texture.format size
      (h.after (.configure { s.config with size }))
    refine ⟨⟨{ s.config with size }, depth, size⟩, h₁,
      [.configure { s.config with size }, .createDepth (label "depth") depth], ?_,
      fun options initial calls consistent => ?_⟩
    · rw [if_pos positive]
      exact configured.bind (created.bind (performs_pure _ h₁))
    · refine consistent_of_configured positive rfl ?_ ?_
      · rw [consistent.unchanged]
      · rw [made, consistent.depthFormat]
  · refine ⟨{ s with size }, h, [], ?_, fun options initial calls consistent => ?_⟩
    · rw [if_neg positive]
      exact performs_pure _ h
    · rw [List.append_nil]
      exact { consistent with tracked := fun other => absurd other positive }

theorem recover_performs (s : Swapchain) (e : SurfaceError) (h : Host) :
    ∃ h' cs, Performs (s.recover e) h e.recovery h' cs ∧ ∀ c ∈ cs, c = .configure s.config := by
  obtain ⟨h', recovered⟩ := s.recover_calls e h
  refine ⟨h', _, recovered, fun c mem => ?_⟩
  split at mem
  · exact List.mem_singleton.1 mem
  · cases mem

theorem openDevice_consistent {size : Size} (positive : size.isPositive)
    (run : (openDevice options size).run h = .ok (.ok s, h')) :
    s.Consistent options s.config h'.recorder.calls.toList := by
  unfold openDevice at run
  obtain ⟨host, h₁, -, run⟩ := run_bind_eq_ok.1 run
  obtain ⟨_, h₂, -, run⟩ := run_bind_eq_ok.1 run
  split at run
  · cases run
  obtain ⟨_, h₃, -, run⟩ := run_bind_eq_ok.1 run
  split at run
  · cases run
  split at run
  next format chosen =>
    have fits : (configFor options host.platform format size).size = size := Size.max_one positive
    generalize configFor options host.platform format size = config at fits run
    obtain ⟨_, h₄, configure, run⟩ := run_bind_eq_ok.1 run
    obtain ⟨depth, h₅, create, run⟩ := run_bind_eq_ok.1 run
    have configured := performs_record (.configure config) h₃
    generalize h₃.after (.configure config) = h' at configured
    cases configured.run.symm.trans configure
    obtain ⟨_, _, made, created⟩ := createDepth_performs options.depthFormat config.size h₄
    cases created.run.symm.trans create
    cases run
    rw [created.calls, configured.calls, Array.toList_append, Array.toList_append,
      List.append_assoc]
    rw [fits] at made
    refine consistent_of_configured positive fits ?_ made
    rw [← fits]
  next => cases run

theorem create_consistent (run : (create options).run h = .ok (.ok s, h')) :
    s.Consistent options s.config h'.recorder.calls.toList := by
  unfold create at run
  obtain ⟨host, h₁, -, run⟩ := run_bind_eq_ok.1 run
  cases positive : host.innerSize.isPositive with
  | false =>
    simp only [positive] at run
    cases run
  | true =>
    simp only [positive] at run
    obtain ⟨_, h₂, -, run⟩ := run_bind_eq_ok.1 run
    obtain ⟨_, h₃, -, run⟩ := run_bind_eq_ok.1 run
    split at run
    · cases run
    obtain ⟨answer, h₄, opened, run⟩ := run_bind_eq_ok.1 run
    cases answer with
    | error e => cases run
    | ok swapchain =>
      cases run
      exact openDevice_consistent positive opened

/-! ## Frames -/

/-- The calls of a frame: the surface is asked for a texture once if the window has area and never
if not, and is only configured as it is; all passes go to the depth attachment. -/
structure Frames (s : Swapchain) (cs : List Call) : Prop where
  acquires : cs.countP Call.isAcquire = if s.size.isPositive then 1 else 0
  configures : ∀ k, .configure k ∈ cs → k = s.config
  passes : ∀ pass, .beginPass pass ∈ cs → pass.depthBuffer = s.depth

theorem Frames.acquired (positive : s.size.isPositive) (answer : Except SurfaceError Nat)
    (quiet : ∀ c ∈ cs, c.isAcquire = false) (configures : ∀ k, .configure k ∈ cs → k = s.config)
    (passes : ∀ pass, .beginPass pass ∈ cs → pass.depthBuffer = s.depth) :
    s.Frames (.acquire answer :: cs) where
  acquires := by
    have none : cs.countP Call.isAcquire = 0 := by simpa using quiet
    rw [if_pos positive, List.countP_cons_of_pos rfl, none]
  configures k hk := by
    rcases List.mem_cons.1 hk with hk | hk
    · cases hk
    · exact configures k hk
  passes pass hp := by
    rcases List.mem_cons.1 hp with hp | hp
    · cases hp
    · exact passes pass hp

end Swapchain

namespace FrameContext

variable {σ : Type}

theorem shownCalls_within (clear : Color) {target : Target} {cs : List Call}
    (within : ∀ c ∈ cs, c.Within target) :
    ∀ c ∈ (shownCalls clear target cs).tail, c.Within target := by
  simp only [shownCalls, List.tail_cons, List.forall_mem_cons, List.forall_mem_append]
  exact ⟨trivial, ⟨rfl, rfl, rfl⟩, trivial, within, trivial, trivial, trivial,
    List.forall_mem_nil _⟩

theorem Attempts.frames {ctx : FrameContext} {clear : Color} {app app' : σ} {control : Control}
    {cs : List Call}
    (attempts : ctx.Attempts clear app (fun target _ cs => ∀ c ∈ cs, c.Within target)
      control app' cs) :
    ctx.swapchain.Frames cs := by
  cases attempts with
  | minimised invalid =>
    refine ⟨?_, by simp, by simp⟩
    rw [invalid]
    rfl
  | @failed e positive =>
    have same : ∀ c ∈ (ctx.swapchain.failedCalls e).tail, c = .configure ctx.swapchain.config := by
      simp only [Swapchain.failedCalls, List.tail_cons]
      split <;> simp
    refine .acquired positive _ (fun c mem => ?_) (fun k mem => ?_) fun pass mem => ?_
    · rw [same c mem]
      rfl
    · cases same _ mem
      rfl
    · cases same _ mem
  | shown positive within =>
    have within := shownCalls_within clear within
    exact .acquired positive _ (fun c mem => (within c mem).isAcquire)
      (fun k mem => (within _ mem).elim) fun pass mem => (within _ mem).2.2

theorem render_performs (ctx : FrameContext) (clear : Color) (drawing : Drawing σ) (app : σ)
    (h : Host) :
    ∃ control app' h' cs, Performs (ctx.render clear drawing.draw app) h (control, app') h' cs ∧
      ctx.swapchain.Frames cs := by
  have drawn : Draws drawing.draw app fun target _ cs => ∀ c ∈ cs, c.Within target :=
    fun target h => performs_lift (drawing.within target app) h
  obtain ⟨control, app', h', cs, rendered, attempts⟩ := ctx.render_attempts clear drawn h
  have frames := attempts.frames
  refine ⟨control, app', h', cs ++ [.rendered control], rendered, ?_, ?_, ?_⟩
  · rw [List.countP_append, frames.acquires]
    rfl
  · simpa using frames.configures
  · simpa using frames.passes

end FrameContext

/-! ## Histories -/

/-- What happens to a swapchain: the window changes its size, the surface reports an error, or a
frame is drawn. -/
inductive SurfaceOp (σ : Type)
  | resize (size : Size)
  | recover (error : SurfaceError)
  | frame (input : Input Float32) (time : FrameTime) (clear : Color) (drawing : Drawing σ)

namespace Swapchain

variable {σ : Type} {options : Options} {initial : SurfaceConfig} {calls : List Call}

/-- Performs an operation, with the state of the application that draws. -/
def perform (s : Swapchain) (app : σ) : SurfaceOp σ → Session (Swapchain × σ)
  | .resize size => return (← s.resize size, app)
  | .recover error => do
      let _ ← s.recover error
      return (s, app)
  | .frame input time clear drawing => do
      let (_, app) ← FrameContext.render { swapchain := s, input, time } clear drawing.draw app
      return (s, app)

/-- Performs operations in order. -/
def performAll (s : Swapchain) (app : σ) : List (SurfaceOp σ) → Session (Swapchain × σ)
  | [] => return (s, app)
  | op :: ops => do
      let (s, app) ← s.perform app op
      s.performAll app ops

theorem perform_performs (s : Swapchain) (app : σ) (op : SurfaceOp σ) (h : Host) :
    ∃ s' app' h' cs, Performs (s.perform app op) h (s', app') h' cs ∧
      ∀ options initial calls, s.Consistent options initial calls →
        s'.Consistent options initial (calls ++ cs) := by
  cases op with
  | resize size =>
    obtain ⟨s', h', cs, resized, keeps⟩ := s.resize_performs size h
    refine ⟨s', app, h', cs ++ [], resized.bind (performs_pure _ h'), ?_⟩
    rwa [List.append_nil]
  | recover error =>
    obtain ⟨h', cs, recovered, same⟩ := s.recover_performs error h
    refine ⟨s, app, h', cs ++ [], recovered.bind (performs_pure _ h'),
      fun options initial calls consistent => ?_⟩
    rw [List.append_nil]
    refine consistent.append fun k hk => ?_
    cases same _ hk
    rfl
  | frame input time clear drawing =>
    obtain ⟨control, app', h', cs, rendered, frames⟩ :=
      FrameContext.render_performs { swapchain := s, input, time } clear drawing app h
    refine ⟨s, app', h', cs ++ [], rendered.bind (performs_pure _ h'),
      fun options initial calls consistent => ?_⟩
    rw [List.append_nil]
    exact consistent.append frames.configures

theorem performAll_consistent (s : Swapchain) (app : σ) (ops : List (SurfaceOp σ)) (h : Host)
    (consistent : s.Consistent options initial h.recorder.calls.toList) :
    ∃ s' app' h', (s.performAll app ops).run h = .ok ((s', app'), h') ∧
      s'.Consistent options initial h'.recorder.calls.toList := by
  induction ops generalizing s app h with
  | nil => exact ⟨s, app, h, rfl, consistent⟩
  | cons op ops ih =>
    obtain ⟨s₁, app₁, h₁, cs, performed, keeps⟩ := s.perform_performs app op h
    have consistent := keeps options initial _ consistent
    have calls : h₁.recorder.calls.toList = h.recorder.calls.toList ++ cs := by
      rw [performed.calls, Array.toList_append]
    rw [← calls] at consistent
    obtain ⟨s₂, app₂, h₂, run, consistent⟩ := ih s₁ app₁ h₁ consistent
    exact ⟨s₂, app₂, h₂, run_bind_eq_ok.2 ⟨_, h₁, performed.run, run⟩, consistent⟩

/-- Whatever is drawn in the next frame, it asks the surface for a texture exactly when no side of
the window is zero, and every pass has a depth attachment of the configured size. -/
def FitsNextFrame (s : Swapchain) (app : σ) (h : Host) : Prop :=
  ∀ (input : Input Float32) (time : FrameTime) (clear : Color) (drawing : Drawing σ),
    ∃ control app' h' cs,
      Performs (FrameContext.render { swapchain := s, input, time } clear drawing.draw app) h
        (control, app') h' cs ∧
      cs.countP Call.isAcquire = (if s.size.width ≠ 0 ∧ s.size.height ≠ 0 then 1 else 0) ∧
      ∀ pass, .beginPass pass ∈ cs → pass.depthBuffer.texture.size = s.config.size

theorem Consistent.fitsNextFrame {s : Swapchain} (consistent : s.Consistent options initial calls)
    (app : σ) (h : Host) : s.FitsNextFrame app h := by
  intro input time clear drawing
  obtain ⟨control, app', h', cs, rendered, frames⟩ :=
    FrameContext.render_performs { swapchain := s, input, time } clear drawing app h
  refine ⟨control, app', h', cs, rendered, ?_, fun pass hp => ?_⟩
  · rw [frames.acquires]
    exact if_congr Size.isPositive_iff rfl rfl
  · rw [frames.passes pass hp]
    exact consistent.depthSize

/-- Once a swapchain has been made, no history of resizes, surface errors and frames fails, and
after each of them the configuration, the last call that configured the surface, the depth
attachment and the size of the window agree. A size is drawn to exactly when the integer test finds
area in it, and the next frame fits. -/
theorem stays_consistent {s₀ : Swapchain} {host h₀ : Host}
    (made : (create options).run host = .ok (.ok s₀, h₀)) (app : σ) (ops : List (SurfaceOp σ)) :
    ∃ s app' h, (s₀.performAll app ops).run h₀ = .ok ((s, app'), h) ∧
      s.Consistent options s₀.config h.recorder.calls.toList ∧
      (∀ size, ({ s with size } : Swapchain).viewport.isValid = size.isPositive) ∧
      s.FitsNextFrame app' h := by
  obtain ⟨s, app', h, run, consistent⟩ :=
    s₀.performAll_consistent app ops h₀ (create_consistent made)
  exact ⟨s, app', h, run, consistent, fun size => size.viewport_isValid,
    consistent.fitsNextFrame app' h⟩

/-- A window that is minimised, loses its surface and comes back larger. -/
def minimised : List (SurfaceOp Playback) :=
  [.resize ⟨0, 5⟩, .recover .lost,
    .frame .initial ⟨0, 0, 0⟩ ⟨0, 0, 0, 1⟩
      (Playback.drawing ⟨⟨0, 0, 0, 1⟩, .standard, [], some .standard⟩),
    .resize ⟨7, 5⟩]

theorem stays_consistent_minimised :
    ∃ s₀ h₀, (create .standard).run (.initial .standard ⟨4, 3⟩ [some .outdated] []) =
        .ok (.ok s₀, h₀) ∧
      ∃ s app' h, (s₀.performAll (Playback.ofCues [] .white) minimised).run h₀ =
          .ok ((s, app'), h) ∧
        s.Consistent .standard s₀.config h.recorder.calls.toList ∧
        (∀ size, ({ s with size } : Swapchain).viewport.isValid = size.isPositive) ∧
        s.FitsNextFrame app' h := by
  have made : ∃ s₀ h₀, (create .standard).run (.initial .standard ⟨4, 3⟩ [some .outdated] []) =
      .ok (.ok s₀, h₀) :=
    ⟨_, _, rfl⟩
  obtain ⟨s₀, h₀, made⟩ := made
  exact ⟨s₀, h₀, made, stays_consistent made (Playback.ofCues [] .white) minimised⟩

end Swapchain

end GroundPlane
