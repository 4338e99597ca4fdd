import Mathlib
import GroundPlane.Proofs.Turns

/-!
# The life of a window

A window opens when the platform resumes a loop that has none and every stage of the setup succeeds,
and it closes when the user or the application asks for it. `Turn.IsLawful` says what one callback
has to do with that, and `App.window_lifecycle` what a whole run has: windows open and close in
turn, the loop is told to exit once for each window that closes and once for each setup that fails,
and the result of the run tells the last of these.
-/

namespace GroundPlane

open Gpu Session

variable {σ : Type}

/-- The call ends the event loop. -/
def Call.isExit : Call → Bool
  | .exit => true
  | _ => false

/-- The call belongs to the setup of a window. -/
def Call.isSetup : Call → Bool
  | .createWindow _ _ _ | .createInstance | .createSurface | .requestAdapter _ _ _
  | .requestDevice _ _ => true
  | _ => false

namespace Turn

/-- The turn sets up a window. -/
def setsUp (t : Turn σ) : Bool :=
  match t.callback with
  | .resumed => t.before.entry.isNone
  | _ => false

/-- The turn opens a window. -/
def opens (options : Options) (t : Turn σ) : Bool :=
  t.setsUp && (t.host.setupError? options).isNone

/-- Why the turn fails to open a window. -/
def failure? (options : Options) (t : Turn σ) : Option SetupError :=
  if t.setsUp then t.host.setupError? options else none

/-- What the application asks for, if the turn passes a frame to it. -/
def control? (app : App σ) (t : Turn σ) : Option Control :=
  if t.callback.isRedraw then
    t.before.entry.bind fun e => ((e.redraw app t.before.app).run t.host).toOption.map fun result =>
      result.1.1
  else none

/-- The turn closes the open window. -/
def stops (app : App σ) (t : Turn σ) : Bool :=
  t.before.entry.isSome && (t.callback.isClose || t.control? app = some .exit)

/-- What a turn does to the window, and which calls it makes for that. -/
structure IsLawful (window : WindowOptions) (options : Options) (app : App σ) (t : Turn σ) :
    Prop where
  live : t.after.entry.isSome = (t.opens options || t.before.entry.isSome && !t.stops app)
  opened : t.opens options → ∃ e h', (Entry.create window options).run t.host = .ok (.ok e, h') ∧
    t.after.entry = some e ∧ t.calls = setupCalls window options ++
      [.configure e.swapchain.config, .createDepth (label "depth") e.swapchain.depth,
        .requestRedraw]
  failed : ∀ error, t.failure? options = some error →
    (∃ h', (Entry.create window options).run t.host = .ok (.error error, h')) ∧
    t.after.entry = none ∧ t.calls = error.calls window options ++ [.exit]
  idle : t.before.entry = none → t.setsUp = false → ∀ c ∈ t.calls, c = .waitForEvents
  single : t.before.entry.isSome → ∀ c ∈ t.calls, c.isSetup = false
  framed : ∀ control, t.control? app = some control → ∃ e time h₁ h₂ cs, t.before.entry = some e ∧
    Performs (app.onFrame { swapchain := e.swapchain, input := e.input, time } t.before.app) h₁
      (control, t.after.app) h₂ cs ∧
    (∀ c ∈ cs, c.isOfFrame) ∧
    t.calls =
      .frame e.input time e.swapchain.viewport :: (cs ++ if control = .exit then stopCalls else [])
  unframed : t.control? app = none → t.after.app = t.before.app ∧
    ∀ input time viewport, Call.frame input time viewport ∉ t.calls
  stopped : t.stops app → stopCalls <:+ t.calls
  exits : t.calls.countP Call.isExit = if t.stops app || (t.failure? options).isSome then 1 else 0

end Turn

/-! ## One turn -/

namespace Call

theorem isExit_of_isOfFrame {c : Call} (frame : c.isOfFrame) : c.isExit = false := by
  cases c <;> first | rfl | cases frame

theorem isSetup_of_isOfFrame {c : Call} (frame : c.isOfFrame) : c.isSetup = false := by
  cases c <;> first | rfl | cases frame

theorem isOfFrame_of_isResizing {c : Call} (resizing : c.isResizing) : c.isOfFrame := by
  cases c <;> first | rfl | cases resizing

theorem countP_isExit_eq_zero {cs : List Call} (only : ∀ c ∈ cs, c.isExit = false) :
    cs.countP isExit = 0 := by
  rw [List.countP_eq_zero]
  intro c mem
  rw [only c mem]
  exact Bool.false_ne_true

end Call

theorem SetupError.countP_isExit_calls (error : SetupError) (window : WindowOptions)
    (options : Options) : (error.calls window options).countP Call.isExit = 0 := by
  cases error <;> rfl

theorem SetupError.frame_notMem_calls (error : SetupError) (window : WindowOptions)
    (options : Options) (input : Input Float32) (time : FrameTime) (viewport : Viewport Float32) :
    Call.frame input time viewport ∉ error.calls window options := by
  cases error <;> simp [calls, reached, drops, setupCalls, deviceCalls]

theorem Callback.isClose_isRedraw_of_newSize {event : WindowEvent} (size : event.newSize?.isSome) :
    (Callback.window event).isClose = false ∧ (Callback.window event).isRedraw = false := by
  cases event <;> first | exact ⟨rfl, rfl⟩ | cases size

namespace Turn

variable {window : WindowOptions} {options : Options} {app : App σ} {t : Turn σ}

theorem opens_of_not_setsUp (other : t.setsUp = false) : t.opens options = false := by
  rw [opens, other, Bool.false_and]

theorem failure?_of_not_setsUp (other : t.setsUp = false) : t.failure? options = none := by
  rw [failure?, other]
  rfl

theorem control?_of_closed (closed : t.before.entry = none) : t.control? app = none := by
  rw [control?, closed, Option.bind_none, ite_self]

theorem control?_of_not_isRedraw (other : t.callback.isRedraw = false) : t.control? app = none := by
  rw [control?, other]
  rfl

theorem control?_of_run {e e' : Entry} {control : Control} {s : σ} {h' : Host}
    (redraw : t.callback = .window .redrawRequested) (isOpen : t.before.entry = some e)
    (run : (e.redraw app t.before.app).run t.host = .ok ((control, s, e'), h')) :
    t.control? app = some control := by
  rw [control?, redraw, isOpen, Option.bind_some, run]
  rfl

theorem stops_of_closed (closed : t.before.entry = none) : t.stops app = false := by
  rw [stops, closed]
  rfl

theorem stops_of_control? (noClose : t.callback.isClose = false) (noFrame : t.control? app = none) :
    t.stops app = false := by
  simp [stops, noClose, noFrame]

/-- Of a turn that does not set up a window, the rest is to be shown. -/
theorem isLawful_of_not_setsUp (noSetup : t.setsUp = false)
    (live : t.after.entry.isSome = (t.before.entry.isSome && !t.stops app))
    (idle : t.before.entry = none → ∀ c ∈ t.calls, c = .waitForEvents)
    (single : ∀ c ∈ t.calls, c.isSetup = false)
    (framed : ∀ control, t.control? app = some control → ∃ e time h₁ h₂ cs,
      t.before.entry = some e ∧
      Performs (app.onFrame { swapchain := e.swapchain, input := e.input, time } t.before.app) h₁
        (control, t.after.app) h₂ cs ∧
      (∀ c ∈ cs, c.isOfFrame) ∧
      t.calls =
        .frame e.input time e.swapchain.viewport ::
          (cs ++ if control = .exit then stopCalls else []))
    (unframed : t.control? app = none → t.after.app = t.before.app ∧
      ∀ input time viewport, Call.frame input time viewport ∉ t.calls)
    (stopped : t.stops app → stopCalls <:+ t.calls)
    (exits : t.calls.countP Call.isExit = if t.stops app then 1 else 0) :
    t.IsLawful window options app := by
  have noOpening : t.opens options = false := opens_of_not_setsUp noSetup
  have noFailure : t.failure? options = none := failure?_of_not_setsUp noSetup
  refine ⟨?_, ?_, ?_, fun closed _ => idle closed, fun _ => single, framed, unframed, stopped, ?_⟩
  · rw [noOpening, live, Bool.false_or]
  · rw [noOpening]
    exact nofun
  · rw [noFailure]
    exact nofun
  · rw [exits, noFailure, Option.isSome_none, Bool.or_false]

/-- A turn that neither sets up a window, nor closes one, nor passes a frame to the application. -/
theorem isLawful_of_quiet (noSetup : t.setsUp = false) (noFrame : t.control? app = none)
    (noStop : t.stops app = false) (kept : t.after.entry.isSome = t.before.entry.isSome)
    (same : t.after.app = t.before.app)
    (only : ∀ c ∈ t.calls, c = .waitForEvents ∨ t.before.entry.isSome ∧ c.isOfFrame) :
    t.IsLawful window options app := by
  refine isLawful_of_not_setsUp noSetup ?_ ?_ ?_ ?_ ?_ ?_ ?_
  · rw [noStop, kept, Bool.not_false, Bool.and_true]
  · intro closed c mem
    rcases only c mem with wait | ⟨isOpen, -⟩
    · exact wait
    · rw [closed] at isOpen
      cases isOpen
  · intro c mem
    rcases only c mem with rfl | ⟨-, frame⟩
    · rfl
    · exact Call.isSetup_of_isOfFrame frame
  · rw [noFrame]
    exact nofun
  · refine fun _ => ⟨same, fun input time viewport mem => ?_⟩
    rcases only _ mem with wait | ⟨-, frame⟩
    · cases wait
    · cases frame
  · rw [noStop]
    exact nofun
  · rw [noStop]
    refine Call.countP_isExit_eq_zero fun c mem => ?_
    rcases only c mem with rfl | ⟨-, frame⟩
    · rfl
    · exact Call.isExit_of_isOfFrame frame

/-- A turn that tries to open a window, and does or does not. -/
theorem isLawful_of_setsUp (closed : t.before.entry = none) (up : t.callback = .resumed)
    (same : t.after.app = t.before.app)
    (result :
      (t.host.setupError? options = none ∧
        ∃ e h', (Entry.create window options).run t.host = .ok (.ok e, h') ∧
        t.after.entry = some e ∧
          t.calls = setupCalls window options ++
            [.configure e.swapchain.config, .createDepth (label "depth") e.swapchain.depth,
              .requestRedraw]) ∨
      ∃ error, t.host.setupError? options = some error ∧
        (∃ h', (Entry.create window options).run t.host = .ok (.error error, h')) ∧
        t.after.entry = none ∧ t.calls = error.calls window options ++ [.exit]) :
    t.IsLawful window options app := by
  have setsUp : t.setsUp = true := by simp [setsUp, up, closed]
  have noFrame : t.control? app = none := control?_of_closed closed
  have noStop : t.stops app = false := stops_of_closed closed
  have opens : t.opens options = (t.host.setupError? options).isNone := by
    rw [Turn.opens, setsUp, Bool.true_and]
  have failure : t.failure? options = t.host.setupError? options := by rw [failure?, setsUp]; rfl
  constructor
  case live =>
    rw [opens, closed, noStop]
    rcases result with ⟨fit, e, h', -, entry, -⟩ | ⟨error, unfit, -, entry, -⟩
    · rw [fit, entry]
      rfl
    · rw [unfit, entry]
      rfl
  case opened =>
    intro isNone
    rw [opens] at isNone
    rcases result with ⟨-, opened⟩ | ⟨error, unfit, -⟩
    · exact opened
    · rw [unfit] at isNone
      cases isNone
  case failed =>
    intro error unfit
    rw [failure] at unfit
    rcases result with ⟨fit, -⟩ | ⟨error', unfit', failed⟩
    · rw [fit] at unfit
      cases unfit
    · cases unfit.symm.trans unfit'
      exact failed
  case idle =>
    intro _ noSetup
    rw [setsUp] at noSetup
    cases noSetup
  case single =>
    rw [closed]
    exact nofun
  case framed =>
    rw [noFrame]
    exact nofun
  case unframed =>
    refine fun _ => ⟨same, fun input time viewport => ?_⟩
    rcases result with ⟨-, e, h', -, -, calls⟩ | ⟨error, -, -, -, calls⟩
    · simp [calls, setupCalls, deviceCalls]
    · rw [calls, List.mem_append]
      rintro (mem | mem)
      · exact error.frame_notMem_calls window options input time viewport mem
      · simp at mem
  case stopped =>
    rw [noStop]
    exact nofun
  case exits =>
    rw [noStop, failure]
    rcases result with ⟨fit, e, h', -, -, calls⟩ | ⟨error, unfit, -, -, calls⟩
    · rw [calls, fit]
      rfl
    · rw [calls, unfit, List.countP_append, error.countP_isExit_calls]
      rfl

/-- A turn that closes the open window at the wish of the user. -/
theorem isLawful_of_isClose (isOpen : t.before.entry.isSome)
    (close : t.callback = .window .closeRequested)
    (ends : t.after = { t.before with entry := none }) (calls : t.calls = stopCalls) :
    t.IsLawful window options app := by
  have noSetup : t.setsUp = false := by rw [setsUp, close]
  have noFrame : t.control? app = none := control?_of_not_isRedraw (by rw [close]; rfl)
  have stops : t.stops app = true := by rw [stops, isOpen, close]; rfl
  refine isLawful_of_not_setsUp noSetup ?_ ?_ ?_ ?_ ?_ ?_ ?_
  · rw [stops, ends, isOpen]
    rfl
  · intro closed
    rw [closed] at isOpen
    cases isOpen
  · simp [calls, stopCalls, Call.isSetup]
  · rw [noFrame]
    exact nofun
  · simp [ends, calls, stopCalls]
  · exact fun _ => calls ▸ List.suffix_refl _
  · rw [stops, calls]
    rfl

/-- A turn that passes a frame to the application, which may ask to close the window. -/
theorem isLawful_of_frame {e e' : Entry} {time : FrameTime} {control : Control} {h₁ h₂ : Host}
    {cs : List Call} (redraw : t.callback = .window .redrawRequested)
    (isOpen : t.before.entry = some e)
    (run : (e.redraw app t.before.app).run t.host = .ok ((control, t.after.app, e'), h₂))
    (call : Performs (app.onFrame { swapchain := e.swapchain, input := e.input, time } t.before.app)
      h₁ (control, t.after.app) h₂ cs)
    (only : ∀ c ∈ cs, c.isOfFrame)
    (entry : t.after.entry = if control = .exit then none else some e') (calls : t.calls =
      .frame e.input time e.swapchain.viewport ::
        (cs ++ if control = .exit then stopCalls else [])) :
    t.IsLawful window options app := by
  have noSetup : t.setsUp = false := by rw [setsUp, redraw]
  have framed : t.control? app = some control := control?_of_run redraw isOpen run
  have noClose : t.callback.isClose = false := by rw [redraw]; rfl
  have stops : t.stops app = decide (control = .exit) := by
    rw [stops, isOpen, noClose, framed]
    simp
  refine isLawful_of_not_setsUp noSetup ?_ ?_ ?_ ?_ ?_ ?_ ?_
  · rw [stops, entry, isOpen]
    split <;> simp [*]
  · intro closed
    rw [closed] at isOpen
    cases isOpen
  · rw [calls, List.forall_mem_cons, List.forall_mem_append]
    refine ⟨rfl, fun c mem => Call.isSetup_of_isOfFrame (only c mem), ?_⟩
    split <;> simp [stopCalls, Call.isSetup]
  · intro control' framed'
    cases framed.symm.trans framed'
    exact ⟨e, time, h₁, h₂, cs, isOpen, call, only, calls⟩
  · rw [framed]
    exact nofun
  · intro exits
    rw [stops, decide_eq_true_eq] at exits
    rw [calls, if_pos exits, ← List.cons_append]
    exact List.suffix_append _ _
  · -- the application's own calls hold no exit, so there is only that of the stop
    have none : cs.countP Call.isExit = 0 :=
      Call.countP_isExit_eq_zero fun c mem => Call.isExit_of_isOfFrame (only c mem)
    rw [calls, stops, List.countP_cons, List.countP_append, none]
    split <;> simp [*, Call.isExit, stopCalls]

theorem isLawful_of_handles
    (handles : Handles window options app t.host t.before t.callback t.calls t.after) :
    t.IsLawful window options app := by
  obtain ⟨c, h, l, cs, l'⟩ := t
  change Handles window options app h l c cs l' at handles
  cases handles with
  | opened closed fit create =>
    exact isLawful_of_setsUp closed rfl rfl (.inl ⟨fit, _, _, create, rfl, rfl⟩)
  | failed closed unfit create =>
    exact isLawful_of_setsUp closed rfl rfl (.inr ⟨_, unfit, ⟨_, create⟩, closed, rfl⟩)
  | resumed isOpen =>
    have noFrame : control? app ⟨.resumed, h, l, [], l⟩ = none := control?_of_not_isRedraw rfl
    refine isLawful_of_quiet ?_ noFrame (stops_of_control? rfl noFrame) rfl rfl
      (List.forall_mem_nil _)
    simp only [setsUp, Option.isNone_eq_false_iff]
    exact isOpen
  | waiting =>
    refine isLawful_of_quiet rfl (control?_of_not_isRedraw rfl)
      (stops_of_control? rfl (control?_of_not_isRedraw rfl)) rfl rfl ?_
    intro c mem
    rcases List.mem_cons.1 mem with rfl | asked
    · exact .inl rfl
    · split at asked
      next isOpen =>
        cases List.mem_singleton.1 asked
        exact .inr ⟨isOpen, rfl⟩
      next => cases asked
  | dropped closed =>
    exact isLawful_of_quiet rfl (control?_of_closed closed) (stops_of_closed closed) rfl rfl
      (List.forall_mem_nil _)
  | closed isOpen => exact isLawful_of_isClose isOpen rfl rfl rfl
  | resized isOpen size only =>
    obtain ⟨noClose, noRedraw⟩ := Callback.isClose_isRedraw_of_newSize size
    refine isLawful_of_quiet rfl (control?_of_not_isRedraw noRedraw)
      (stops_of_control? noClose (control?_of_not_isRedraw noRedraw)) isOpen.symm rfl ?_
    intro c mem
    rcases List.mem_append.1 mem with resizing | asked
    · exact .inr ⟨isOpen, Call.isOfFrame_of_isResizing (only c resizing)⟩
    · cases List.mem_singleton.1 asked
      exact .inr ⟨isOpen, rfl⟩
  | noted isOpen noClose noRedraw =>
    refine isLawful_of_quiet rfl (control?_of_not_isRedraw noRedraw)
      (stops_of_control? noClose (control?_of_not_isRedraw noRedraw)) ?_ rfl (List.forall_mem_nil _)
    rw [isOpen]
    rfl
  | frame isOpen run call only => exact isLawful_of_frame rfl isOpen run call only rfl rfl

/-- The loop keeps the last failure. -/
theorem failure_of_handles
    (handles : Handles window options app t.host t.before t.callback t.calls t.after) :
    t.after.failure = (t.failure? options).or t.before.failure := by
  obtain ⟨c, h, l, cs, l'⟩ := t
  change Handles window options app h l c cs l' at handles
  cases handles with
  | opened closed fit create => simp [failure?, setsUp, closed, fit]
  | failed closed unfit create => simp [failure?, setsUp, closed, unfit]
  | resumed isOpen =>
    have noSetup : setsUp ⟨.resumed, h, l, [], l⟩ = false := by
      simp only [setsUp, Option.isNone_eq_false_iff]
      exact isOpen
    rw [failure?_of_not_setsUp noSetup]
    rfl
  | _ => rfl

theorem before_of_setsUp (up : t.setsUp) : t.before.entry = none := by
  unfold setsUp at up
  split at up
  · exact Option.isNone_iff_eq_none.1 up
  · cases up

theorem before_of_opens (opens : t.opens options) : t.before.entry = none :=
  before_of_setsUp (Bool.and_eq_true_iff.1 opens).1

theorem before_of_failure? (failed : (t.failure? options).isSome) : t.before.entry = none := by
  unfold failure? at failed
  split at failed
  next up => exact before_of_setsUp up
  next => cases failed

theorem before_of_stops (stops : t.stops app) : t.before.entry.isSome :=
  (Bool.and_eq_true_iff.1 stops).1

/-- A window that is open now was open before or has just opened, and one that was open has closed
or is open. -/
theorem IsLawful.balance (lawful : t.IsLawful window options app) :
    t.before.entry.isSome.toNat + (if t.opens options then 1 else 0) =
      (if t.stops app then 1 else 0) + t.after.entry.isSome.toNat := by
  rw [lawful.live]
  cases opens : t.opens options with
  | true =>
    have closed := before_of_opens opens
    rw [stops_of_closed closed, closed]
    rfl
  | false =>
    cases stops : t.stops app with
    | true =>
      rw [before_of_stops stops]
      rfl
    | false => simp

end Turn

/-! ## Whole runs -/

namespace Loop

variable {window : WindowOptions} {options : Options} {app : App σ} {l : Loop σ}
  {turns : List (Turn σ)}

/-- Windows open and close in turn. -/
theorem Follows.countP_opens (follows : Follows window options app l turns) :
    l.entry.isSome.toNat + turns.countP (Turn.opens options) =
      turns.countP (Turn.stops app) + (l.afterTurns turns).entry.isSome.toNat := by
  induction follows with
  | nil => simp [afterTurns]
  | @cons t turns handles _ ih =>
    have step := (Turn.isLawful_of_handles handles).balance
    rw [afterTurns_cons, List.countP_cons, List.countP_cons]
    omega

theorem Follows.countP_isExit (follows : Follows window options app l turns) :
    (turns.flatMap Turn.calls).countP Call.isExit =
      turns.countP (Turn.stops app) + turns.countP fun t => (t.failure? options).isSome := by
  induction follows with
  | nil => rfl
  | @cons t turns handles _ ih =>
    rw [List.flatMap_cons, List.countP_append, ih, (Turn.isLawful_of_handles handles).exits,
      List.countP_cons, List.countP_cons]
    cases failed : (t.failure? options).isSome with
    | true =>
      rw [Turn.stops_of_closed (Turn.before_of_failure? failed)]
      simp
      omega
    | false =>
      simp
      omega

theorem Follows.failure (follows : Follows window options app l turns) :
    (l.afterTurns turns).failure =
      (turns.filterMap (Turn.failure? options)).getLast?.or l.failure := by
  induction follows with
  | nil => rfl
  | @cons t turns handles _ ih =>
    rw [afterTurns_cons, ih, Turn.failure_of_handles handles, List.filterMap_cons]
    cases t.failure? options with
    | none => rfl
    | some error =>
      rw [List.getLast?_cons]
      cases (turns.filterMap (Turn.failure? options)).getLast? <;> rfl

theorem Follows.links (follows : Follows window options app l turns) {n : Nat} {t : Turn σ}
    (nth : turns[n]? = some t) :
    t.before = l.afterTurns (turns.take n) ∧ t.after = l.afterTurns (turns.take (n + 1)) := by
  induction follows generalizing n with
  | nil => cases nth
  | cons handles _ ih =>
    cases n with
    | zero =>
      cases nth
      exact ⟨rfl, rfl⟩
    | succ n =>
      rw [List.take_succ_cons, List.take_succ_cons, afterTurns_cons, afterTurns_cons]
      exact ih nth

/-- A run without faults of the event loop ends well unless a setup has failed. -/
theorem result_eq_ok_iff (l : Loop σ) (faults : Faults) :
    l.result faults = .ok () ↔ faults.runLoop = none ∧ l.failure = none := by
  unfold result
  cases faults.runLoop <;> cases l.failure <;> simp

theorem result_of_failure {faults : Faults} {error : SetupError} (sound : faults.runLoop = none)
    (failed : l.failure = some error) : l.result faults = .error (.setup error) := by
  rw [result, sound, failed]

end Loop

/-- What a report says of the turns of a run: the calls that they made, and the last setup that
failed. -/
structure Report.Tells (report : Report) (options : Options) (faults : Faults)
    (turns : List (Turn σ)) (l : Loop σ) : Prop where
  steps : report.steps = turns.map Turn.calls
  closing : report.closing = if l.entry.isSome then [.dropSurface, .dropWindow] else []
  succeeds : report.result = .ok () ↔
    faults.eventLoop = none ∧ faults.runLoop = none ∧ ∀ t ∈ turns, t.failure? options = none
  fails : faults.eventLoop = none → faults.runLoop = none → ∀ error,
    (turns.filterMap (Turn.failure? options)).getLast? = some error →
      report.result = .error (.setup error)

namespace App

variable {window : WindowOptions} {options : Options}

theorem turns_follows (guest : Guest σ) (start : σ) (h : Host) (occasions : List Occasion) :
    Loop.Follows window options guest.toApp (.initial start)
      (guest.turns start window options h occasions) := by
  unfold turns
  split
  · exact .nil
  · exact Loop.turns_follows guest _ h occasions

/-- A run without faults of the event loop tells what its turns did. -/
theorem tells_of_follows {app : App σ} {start : σ} {turns : List (Turn σ)} {faults : Faults}
    (follows : Loop.Follows window options app (.initial start) turns)
    (sound : faults.eventLoop = none) :
    Report.Tells
      { result := ((Loop.initial start).afterTurns turns).result faults
        steps := turns.map Turn.calls
        closing :=
          if ((Loop.initial start).afterTurns turns).entry.isSome then [.dropSurface, .dropWindow]
          else [] }
      options faults turns ((Loop.initial start).afterTurns turns) := by
  have failure := follows.failure
  rw [show (Loop.initial start).failure = none from rfl, Option.or_none] at failure
  constructor
  case steps => rfl
  case closing => rfl
  case succeeds =>
    rw [Loop.result_eq_ok_iff, failure, List.getLast?_eq_none_iff, List.filterMap_eq_nil_iff]
    simp [sound]
  case fails =>
    intro _ interrupted error last
    exact Loop.result_of_failure interrupted (failure.trans last)

/-- A window opens only when the platform resumes a loop that has none and its setup succeeds, and
closes only when the user or the application asks for it. Nothing is drawn, and no frame is passed
to the application, while none is open. The loop is told to exit once for each of these ends and
once for each setup that fails, and the run reports the last failure. Only a frame that crashes cuts
a run short. The outside may change in any way between callbacks, as it does not in an ordinary
run. -/
theorem window_lifecycle (guest : Guest σ) (start : σ) (window : WindowOptions)
    (options : Options) (h : Host) (occasions : List Occasion) :
    let turns := guest.turns start window options h occasions
    let loop n := (Loop.initial start).afterTurns (turns.take n)
    (∀ n t, turns[n]? = some t →
      t.before = loop n ∧ t.after = loop (n + 1) ∧ t.IsLawful window options guest.toApp) ∧
    (∀ n, (turns.take n).countP (Turn.opens options) =
      (turns.take n).countP (Turn.stops guest.toApp) + (loop n).entry.isSome.toNat) ∧
    (turns.flatMap Turn.calls).countP Call.isExit =
      turns.countP (Turn.stops guest.toApp) + turns.countP (fun t => (t.failure? options).isSome) ∧
    (match (guest.runUnder start window options occasions).run h with
    | .ok (report, _) =>
        report.Tells options h.platform.faults turns (loop turns.length) ∧
        (h.platform.faults.eventLoop = none →
          turns.map Turn.callback = occasions.map Occasion.callback)
    | .error crash => (loop turns.length).Crashes guest.toApp crash ∧ ∃ rest,
        occasions.map Occasion.callback = turns.map Turn.callback ++
          .window .redrawRequested :: rest) ∧
    ∀ callbacks, guest.runUnder start window options (callbacks.map .still) =
      guest.run start window options callbacks := by
  intro turns loop
  have follows : Loop.Follows window options guest.toApp (.initial start) turns :=
    turns_follows guest start h occasions
  have last : loop turns.length = (Loop.initial start).afterTurns turns := by
    change (Loop.initial start).afterTurns (turns.take turns.length) = _
    rw [List.take_length]
  refine ⟨?_, ?_, follows.countP_isExit, ?_, guest.runUnder_still start window options⟩
  · intro n t nth
    obtain ⟨before, after⟩ := follows.links nth
    exact ⟨before, after, Turn.isLawful_of_handles (follows.handles (List.mem_of_getElem? nth))⟩
  · intro n
    have balance := (follows.take n).countP_opens
    rwa [show (Loop.initial start).entry.isSome.toNat = 0 from rfl, Nat.zero_add] at balance
  · rw [last]
    cases fault : h.platform.faults.eventLoop with
    | some cause =>
      have none : turns = [] := turns_of_eventLoop guest.toApp fault occasions
      rw [run_runUnder_of_eventLoop guest.toApp fault, none]
      refine ⟨⟨rfl, rfl, ?_, ?_⟩, nofun⟩
      · simp [fault]
      · simp [fault]
    | none =>
      rcases runUnder_cases guest fault occasions
          (show guest.turns start window options h occasions = turns from rfl) with
        ⟨h', run, all⟩ | ⟨crash, rest, run, upto, crashes⟩
      · rw [run]
        exact ⟨tells_of_follows follows fault, fun _ => all⟩
      · rw [run]
        exact ⟨crashes, rest, upto⟩

end App

end GroundPlane
