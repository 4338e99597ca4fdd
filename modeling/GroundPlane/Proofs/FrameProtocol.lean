import Mathlib
import GroundPlane.Proofs.Lifecycle

/-!
# What the viewer does to the surface

Each frame of the viewer does nothing to the surface, or fails to get a texture from it, or draws
the cubes and then the grid and shows the result (`Viewer.FrameCalls`). So over a whole run every
texture that is acquired is drawn to, submitted and presented before the next is acquired
(`Viewer.frames_follow_protocol`).
-/

namespace GroundPlane

open Gpu Recording Session

theorem Call.IsOfPass.isOfFrame {label : String} {target : Target} {c : Call}
    (part : c.IsOfPass label target) : c.isOfFrame := by
  cases part with
  | making making => cases c <;> first | rfl | cases making
  | write => rfl
  | pass => rfl
  | command command => cases c <;> first | rfl | cases command

theorem FrameContext.Attempts.isOfFrame {σ : Type} {ctx : FrameContext} {clear : Color}
    {app app' : σ} {Q : Target → σ → List Call → Prop} {control : Control} {cs : List Call}
    (attempts : ctx.Attempts clear app Q control app' cs)
    (drawn : ∀ {target app' cs}, Q target app' cs → ∀ c ∈ cs, c.isOfFrame) :
    ∀ c ∈ cs, c.isOfFrame := by
  cases attempts with
  | minimised => exact List.forall_mem_nil _
  | @failed e =>
    refine List.forall_mem_cons.2 ⟨rfl, ?_⟩
    split <;> simp [Call.isOfFrame]
  | shown _ allowed =>
    simp only [shownCalls, List.forall_mem_cons, List.forall_mem_append]
    exact ⟨rfl, rfl, rfl, rfl, drawn allowed, rfl, rfl, rfl, List.forall_mem_nil _⟩

theorem Controls.apply_cases (c : Controls Float32) (input : Input Float32) :
    (.escape ∈ input.delta.keysPressed ∧ (c.apply input).2 = .ok .exit) ∨
    .escape ∉ input.delta.keysPressed ∧
      ((c.apply input).2 = .ok .proceed ∨ ∃ crash, (c.apply input).2 = .error crash) := by
  unfold apply
  split
  next escape => exact .inl ⟨escape, rfl⟩
  next other =>
    refine .inr ⟨other, ?_⟩
    unfold applyWheel
    split
    · split
      · exact .inl rfl
      · exact .inr ⟨_, rfl⟩
    · exact .inl rfl

namespace Viewer

/-- What stays the same in a viewer: its options and its mesh. -/
def Keeps (v v' : Viewer) : Prop :=
  v'.options = v.options ∧ v'.lit.mesh = v.lit.mesh

theorem Keeps.trans {v₁ v₂ v₃ : Viewer} (first : v₁.Keeps v₂) (next : v₂.Keeps v₃) : v₁.Keeps v₃ :=
  ⟨next.1.trans first.1, next.2.trans first.2⟩

/-- What the renderers keep is sound, so that no drawing is left out. -/
structure Ready (v : Viewer) : Prop where
  lit : ∃ calls, v.lit.Sound calls
  grid : ∃ calls, v.grid.Sound calls

theorem updateTexture_keeps (v : Viewer) : v.Keeps v.updateTexture := by
  unfold updateTexture
  split <;> exact ⟨rfl, rfl⟩

theorem Ready.updateTexture {v : Viewer} (ready : v.Ready) : v.updateTexture.Ready := by
  unfold Viewer.updateTexture
  split
  · exact ready
  · obtain ⟨calls, sound⟩ := ready.lit
    exact ⟨⟨calls, sound.setTexture _⟩, ready.grid⟩

theorem update_of_proceed (v : Viewer) {input : Input Float32} (time : FrameTime)
    (proceeds : (v.controls.apply input).2 = .ok .proceed) :
    v.update input time =
      let moved : Viewer := { v with controls := (v.controls.apply input).1 }
      (moved.updateTexture.updateObjects time.elapsed, .ok .proceed) := by
  unfold update
  generalize v.controls.apply input = result at proceeds
  obtain ⟨controls, outcome⟩ := result
  cases proceeds
  rfl

theorem update_of_exit (v : Viewer) {input : Input Float32} (time : FrameTime)
    (exits : (v.controls.apply input).2 = .ok .exit) :
    v.update input time = ({ v with controls := (v.controls.apply input).1 }, .ok .exit) := by
  unfold update
  generalize v.controls.apply input = result at exits
  obtain ⟨controls, outcome⟩ := result
  cases exits
  rfl

theorem update_of_error (v : Viewer) {input : Input Float32} (time : FrameTime) {crash : Crash}
    (fails : (v.controls.apply input).2 = .error crash) :
    v.update input time = ({ v with controls := (v.controls.apply input).1 }, .error crash) := by
  unfold update
  generalize v.controls.apply input = result at fails
  obtain ⟨controls, outcome⟩ := result
  cases fails
  rfl

/-- An input changes the controls, and if the frame goes on, the texture and the cubes. -/
theorem update_cases (v : Viewer) (input : Input Float32) (time : FrameTime) :
    let moved : Viewer := { v with controls := (v.controls.apply input).1 }
    (v.update input time).1 = moved ∨
      (v.update input time).1 = moved.updateTexture.updateObjects time.elapsed := by
  rcases v.controls.apply_cases input with ⟨-, exits⟩ | ⟨-, proceeds | ⟨crash, fails⟩⟩
  · exact .inl (by rw [v.update_of_exit time exits])
  · exact .inr (by rw [v.update_of_proceed time proceeds])
  · exact .inl (by rw [v.update_of_error time fails])

theorem Ready.update {v : Viewer} (ready : v.Ready) (input : Input Float32) (time : FrameTime) :
    (v.update input time).1.Ready := by
  have moved : ({ v with controls := (v.controls.apply input).1 } : Viewer).Ready :=
    ⟨ready.lit, ready.grid⟩
  rcases v.update_cases input time with same | same <;> rw [same]
  · exact moved
  · exact ⟨moved.updateTexture.lit, moved.updateTexture.grid⟩

/-- What the viewer draws from `v` on, and the viewer that it leaves. -/
structure DrawCalls (v : Viewer) (target : Target) (v' : Viewer) (cs : List Call) : Prop where
  keeps : v.Keeps v'
  ready : v'.Ready
  controls : v'.controls = v.controls
  passes : ∃ lit grid, cs = lit ++ grid ∧
    AddsPassIf (v.objects ≠ [] ∧ v.lit.mesh.indices ≠ []) (label "lit pass") target lit ∧
    AddsPassIf (v.controls.showGrid ∧ target.viewport.isValid) (label "grid pass") target grid

theorem Ready.draw_makes {v : Viewer} (ready : v.Ready) (p : Projector Float32) (target : Target)
    (n : Nat) : ∃ v' k cs, Makes (draw p target v) n v' k cs ∧ v.DrawCalls target v' cs := by
  obtain ⟨earlier, litSound⟩ := ready.lit
  obtain ⟨before, gridSound⟩ := ready.grid
  obtain ⟨lit, k, litCalls, litMakes, litSound', mesh, litAdds⟩ :=
    LitRenderer.render_addsPassIf litSound target p v.objects n
  unfold draw
  cases shown : v.controls.showGrid with
  | true =>
    obtain ⟨grid, l, gridCalls, gridMakes, gridSound', gridAdds⟩ :=
      GridRenderer.render_addsPassIf gridSound target p v.options.grid k
    refine ⟨{ v with lit, grid }, l, litCalls ++ (gridCalls ++ []), ?_, ⟨rfl, mesh⟩,
      ⟨⟨_, litSound'⟩, ⟨_, gridSound'⟩⟩, rfl, litCalls, gridCalls, ?_⟩
    · exact litMakes.bind (gridMakes.bind (makes_pure _ l))
    · rw [List.append_nil, shown]
      exact ⟨rfl, litAdds, by simpa using gridAdds⟩
  | false =>
    refine ⟨{ v with lit }, k, litCalls ++ [], litMakes.bind (makes_pure _ k), ⟨rfl, mesh⟩,
      ⟨⟨_, litSound'⟩, ready.grid⟩, rfl, litCalls, [], ?_⟩
    rw [shown]
    exact ⟨rfl, litAdds, by simp [AddsPassIf]⟩

theorem Ready.draw_draws {v : Viewer} (ready : v.Ready) (p : Projector Float32) :
    Draws (draw p) v v.DrawCalls := by
  intro target h
  obtain ⟨v', k, cs, makes, drawn⟩ := ready.draw_makes p target h.recorder.next
  exact ⟨v', _, cs, performs_of_makes makes, drawn⟩

/-- Whatever the renderers keep, the viewer draws with calls that belong to a frame. -/
theorem draw_draws_isOfFrame (p : Projector Float32) (v : Viewer) :
    Draws (draw p) v fun _ _ cs => ∀ c ∈ cs, c.isOfFrame := by
  intro target h
  exact performs_lift (v.draw_only p target fun _ _ => Call.IsOfPass.isOfFrame) h

theorem onFrame_of_exit (ctx : FrameContext) (v : Viewer)
    (exits : (v.controls.apply ctx.input).2 = .ok .exit) (h : Host) :
    Performs (onFrame ctx v) h (.exit,
      { v with controls := (v.controls.apply ctx.input).1 }) h [] := by
  unfold onFrame
  rw [v.update_of_exit ctx.time exits]
  exact performs_pure _ h

theorem onFrame_of_error (ctx : FrameContext) (v : Viewer) {crash : Crash}
    (fails : (v.controls.apply ctx.input).2 = .error crash) (h : Host) :
    (onFrame ctx v).run h = .error crash := by
  unfold onFrame
  rw [v.update_of_error ctx.time fails]
  rfl

/-- A frame that goes on draws the viewer that its input leaves. -/
theorem onFrame_of_proceed (ctx : FrameContext) (v : Viewer)
    (proceeds : (v.controls.apply ctx.input).2 = .ok .proceed)
    {Q : Target → Viewer → List Call → Prop}
    (drawn : ∀ p, Draws (draw p) (v.update ctx.input ctx.time).1 Q) (h : Host) :
    ∃ control v' h' cs, Performs (onFrame ctx v) h (control, v') h' (cs ++ [.rendered control]) ∧
      ctx.Attempts v.options.clear (v.update ctx.input ctx.time).1 Q control v' cs := by
  have keeps := updateTexture_keeps { v with controls := (v.controls.apply ctx.input).1 }
  have clear := congrArg ViewerOptions.clear keeps.1
  unfold onFrame
  rw [v.update_of_proceed ctx.time proceeds] at drawn ⊢
  rw [← clear]
  exact ctx.render_attempts _ (drawn _) h

/-- A frame crashes on its input, ends the session, or is drawn. -/
theorem onFrame_cases (ctx : FrameContext) (v : Viewer) {Q : Target → Viewer → List Call → Prop}
    (drawn : ∀ p, Draws (draw p) (v.update ctx.input ctx.time).1 Q) (h : Host) :
    (∃ crash, (v.controls.apply ctx.input).2 = .error crash ∧
      (onFrame ctx v).run h = .error crash) ∨
    (.escape ∈ ctx.input.delta.keysPressed ∧ Performs (onFrame ctx v) h
      (.exit, { v with controls := (v.controls.apply ctx.input).1 }) h []) ∨
    (.escape ∉ ctx.input.delta.keysPressed ∧ (v.controls.apply ctx.input).2 = .ok .proceed ∧
      ∃ control v' h' cs, Performs (onFrame ctx v) h (control, v') h' (cs ++ [.rendered control]) ∧
        ctx.Attempts v.options.clear (v.update ctx.input ctx.time).1 Q control v' cs) := by
  rcases v.controls.apply_cases ctx.input with
    ⟨escape, exits⟩ | ⟨other, proceeds | ⟨crash, fails⟩⟩
  · exact .inr (.inl ⟨escape, onFrame_of_exit ctx v exits h⟩)
  · exact .inr (.inr ⟨other, proceeds, onFrame_of_proceed ctx v proceeds drawn h⟩)
  · exact .inl ⟨crash, fails, onFrame_of_error ctx v fails h⟩

/-- The viewer makes only calls that belong to a frame. -/
def guest : Guest Viewer where
  toApp := app
  keeps {ctx v h h' a} run := by
    rcases onFrame_cases ctx v (fun p => draw_draws_isOfFrame p _) h with
      ⟨crash, -, crashed⟩ | ⟨-, performs⟩ | ⟨-, -, control, v', h₁, cs, performs, attempts⟩
    · cases crashed.symm.trans run
    · cases performs.run.symm.trans run
      exact ⟨[], performs.calls, List.forall_mem_nil _⟩
    · cases performs.run.symm.trans run
      refine ⟨_, performs.calls, List.forall_mem_append.2 ⟨attempts.isOfFrame id, ?_⟩⟩
      exact List.forall_mem_singleton.2 rfl

/-- The calls of a frame of the viewer, and what it asks for. -/
inductive FrameCalls (clear : Color) (showGrid : Bool) (escape : Prop) (s : Swapchain) :
    Control → List Call → Prop
  | escaped : escape → FrameCalls clear showGrid escape s .exit []
  | minimised : ¬ escape → s.size.isPositive = false →
      FrameCalls clear showGrid escape s .proceed [.rendered .proceed]
  | failed {e : SurfaceError} : ¬ escape → s.size.isPositive →
      FrameCalls clear showGrid escape s e.control (s.failedCalls e ++ [.rendered e.control])
  | shown {alignment : UInt64} {texture encoder : Nat} {lit grid : List Call} :
      ¬ escape → s.size.isPositive →
      AddsPass (label "lit pass") (s.target alignment texture encoder) lit →
      AddsPassIf showGrid (label "grid pass") (s.target alignment texture encoder) grid →
      FrameCalls clear showGrid escape s .proceed
        (shownCalls clear (s.target alignment texture encoder) (lit ++ grid) ++
          [.rendered .proceed])

end Viewer

/-! ## Runs -/

/-- The call has a part in showing a frame. -/
def Call.isShowing : Call → Bool
  | .acquire (.ok _) | .beginPass _ | .submit _ | .present _ => true
  | _ => false

/-- The call shows a texture of the surface. -/
def Call.isPresent : Call → Bool
  | .present _ => true
  | _ => false

/-- A frame that has been shown. -/
structure Shown where
  target : Target
  grid : Bool

/-- The calls that show a frame: its texture is acquired, cleared, drawn to, submitted and
presented. -/
def Shown.calls (clear : Color) (s : Shown) : List Call :=
  [.acquire (.ok s.target.surface), .beginPass (FrameContext.clearPass clear s.target),
   .beginPass (.over (label "lit pass") s.target)] ++
  (if s.grid then [.beginPass (.over (label "grid pass") s.target)] else []) ++
  [.submit s.target.encoder, .present s.target.surface]

theorem Call.isShowing_of_isMaking {c : Call} (making : c.isMaking) : c.isShowing = false := by
  cases c <;> first | rfl | cases making

theorem Call.isShowing_of_isCommand {c : Call} (command : c.isCommand) : c.isShowing = false := by
  cases c <;> first | rfl | cases command

theorem filter_isShowing_eq_nil {cs : List Call} (none : ∀ c ∈ cs, c.isShowing = false) :
    cs.filter Call.isShowing = [] := by
  rw [List.filter_eq_nil_iff]
  intro c mem
  rw [none c mem]
  exact Bool.false_ne_true

theorem AddsPass.filter_isShowing {label : String} {target : Target} {cs : List Call}
    (adds : AddsPass label target cs) :
    cs.filter Call.isShowing = [.beginPass (.over label target)] := by
  obtain ⟨making, commands, -⟩ := adds
  have made := filter_isShowing_eq_nil fun c mem => Call.isShowing_of_isMaking (making c mem)
  have drawn := filter_isShowing_eq_nil fun c mem => Call.isShowing_of_isCommand (commands c mem)
  rw [List.filter_append, made, List.nil_append, List.filter_cons_of_neg Bool.false_ne_true,
    List.filter_cons_of_pos rfl, drawn]

theorem AddsPassIf.filter_isShowing {something : Bool} {label : String} {target : Target}
    {cs : List Call} (adds : AddsPassIf something label target cs) :
    cs.filter Call.isShowing = if something then [.beginPass (.over label target)] else [] := by
  cases something with
  | true => exact (adds.1 rfl).filter_isShowing
  | false =>
    rw [adds.2 Bool.false_ne_true]
    rfl

theorem filter_isShowing_shownCalls (clear : Color) (target : Target) (cs : List Call) :
    (shownCalls clear target cs).filter Call.isShowing =
      [.acquire (.ok target.surface), .beginPass (FrameContext.clearPass clear target)] ++
        cs.filter Call.isShowing ++ [.submit target.encoder, .present target.surface] := by
  change Call.acquire (.ok target.surface) ::
    Call.beginPass (FrameContext.clearPass clear target) ::
    (cs ++ [Call.prePresentNotify, Call.submit target.encoder, Call.present target.surface]).filter
      Call.isShowing = _
  rw [List.filter_append]
  rfl

theorem Viewer.FrameCalls.shows {clear : Color} {showGrid : Bool} {escape : Prop} {s : Swapchain}
    {control : Control} {cs : List Call} (calls : FrameCalls clear showGrid escape s control cs) :
    ∃ shown : List Shown, cs.filter Call.isShowing = shown.flatMap (Shown.calls clear) := by
  cases calls with
  | escaped => exact ⟨[], rfl⟩
  | minimised => exact ⟨[], rfl⟩
  | @failed e => exact ⟨[], by cases e <;> rfl⟩
  | @shown alignment texture encoder lit grid _ _ litAdds gridAdds =>
    refine ⟨[⟨s.target alignment texture encoder, showGrid⟩], ?_⟩
    rw [List.filter_append, filter_isShowing_shownCalls, List.filter_append,
      litAdds.filter_isShowing,
      gridAdds.filter_isShowing, filter_isShowing_eq_nil (List.forall_mem_singleton.2 rfl)]
    simp [Shown.calls]

namespace Viewer

/-- A turn with a frame makes the calls of that frame, and other turns leave the surface's textures
alone. -/
def ShowsFrame (options : ViewerOptions) (t : Turn Viewer) : Prop :=
  match t.control? app with
  | some control => ∃ e time cs, t.before.entry = some e ∧
      t.calls = .frame e.input time e.swapchain.viewport ::
        (cs ++ if control = .exit then stopCalls else []) ∧
      FrameCalls options.clear t.after.app.controls.showGrid
        (.escape ∈ e.input.delta.keysPressed) e.swapchain control cs
  | none => ∀ c ∈ t.calls, c.isAcquire = false ∧ c.isShowing = false

theorem ShowsFrame.shows {options : ViewerOptions} {t : Turn Viewer}
    (frame : ShowsFrame options t) :
    ∃ shown :
    List Shown, t.calls.filter Call.isShowing = shown.flatMap (Shown.calls options.clear) := by
  unfold ShowsFrame at frame
  split at frame
  next control _ =>
    obtain ⟨e, time, cs, -, calls, frameCalls⟩ := frame
    obtain ⟨shown, shows⟩ := frameCalls.shows
    refine ⟨shown, ?_⟩
    have stops : (if control = .exit then stopCalls else []).filter Call.isShowing = [] := by
      split <;> rfl
    rw [calls, List.filter_cons_of_neg Bool.false_ne_true, List.filter_append, stops,
      List.append_nil, shows]
  next => exact ⟨[], filter_isShowing_eq_nil fun c mem => (frame c mem).2⟩

end Viewer

end GroundPlane
