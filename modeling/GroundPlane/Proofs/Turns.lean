import Mathlib
import GroundPlane.Session.Run
import GroundPlane.Proofs.InputDelivery
import GroundPlane.Proofs.Setup

/-!
# Runs, turn by turn

`Handles` says everything that a callback can do to a loop, and `Loop.step_handles` that it does
nothing else. A run is then a list of turns, one for each callback (`App.turns`), which ends early
only at a frame that crashes (`App.runUnder_cases`). The outside may change in any way between
callbacks; a run in which it does not is an ordinary one (`App.runUnder_still`).
-/

namespace GroundPlane

open Gpu Session

variable {σ : Type}

/-! ## Callbacks -/

/-- The callback asks to close the window. -/
def Callback.isClose : Callback → Bool
  | .window .closeRequested => true
  | _ => false

/-- A call that an application may make within a frame, on what it is given. The loop keeps to
itself what opens and closes windows, and its own end. -/
def Call.isOfFrame : Call → Bool
  | .createWindow _ _ _ | .waitForEvents | .exit | .dropSurface | .dropWindow | .createInstance
  | .createSurface
  | .requestAdapter _ _ _ | .requestDevice _ _ | .frame _ _ _ => false
  | _ => true

/-- An application that keeps to its frames: it takes no call back and makes only those that it may
make. -/
structure Guest (σ : Type) extends App σ where
  keeps : ∀ {ctx : FrameContext} {s : σ} {h h' : Host} {a : Control × σ},
    (onFrame ctx s).run h = .ok (a, h') →
    ∃ cs : List Call, h'.recorder.calls = h.recorder.calls ++ cs.toArray ∧ ∀ c ∈ cs, c.isOfFrame

/-- The call follows the window to a new size. -/
def Call.isResizing : Call → Bool
  | .configure _ | .createDepth _ _ => true
  | _ => false

/-- The calls that close a window and end the loop. -/
def stopCalls : List Call :=
  [.dropSurface, .dropWindow, .exit]

/-- What a callback does to a loop, and the calls that it makes. -/
inductive Handles (window : WindowOptions) (options : Options) (app : App σ) (h : Host)
    (l : Loop σ) :
    Callback → List Call → Loop σ → Prop
  | opened {e : Entry} {h' : Host} : l.entry = none → h.setupError? options = none →
      (Entry.create window options).run h = .ok (.ok e, h') →
      Handles window options app h l .resumed
        (setupCalls window options ++
          [.configure e.swapchain.config, .createDepth (label "depth") e.swapchain.depth,
            .requestRedraw])
        { l with entry := some e }
  | failed {error : SetupError} {h' : Host} : l.entry = none → h.setupError? options = some error →
      (Entry.create window options).run h = .ok (.error error, h') →
      Handles window options app h l .resumed (error.calls window options ++ [.exit])
        { l with failure := some error }
  | resumed : l.entry.isSome → Handles window options app h l .resumed [] l
  | waiting : Handles window options app h l .aboutToWait
      (.waitForEvents :: if l.entry.isSome then [.requestRedraw] else []) l
  | dropped {event : WindowEvent} : l.entry = none →
      Handles window options app h l (.window event) [] l
  | closed : l.entry.isSome →
      Handles window options app h l (.window .closeRequested) stopCalls { l with entry := none }
  | resized {event : WindowEvent} {e : Entry} {cs : List Call} : l.entry.isSome →
      event.newSize?.isSome → (∀ c ∈ cs, c.isResizing) →
      Handles window options app h l (.window event) (cs ++ [.requestRedraw])
        { l with entry := some e }
  | noted {event : WindowEvent} {e : Entry} : l.entry = some e →
      (Callback.window event).isClose = false →
      (Callback.window event).isRedraw = false →
      Handles window options app h l (.window event) [] { l with entry := some (e.observe event) }
  | frame {e e' : Entry} {time : FrameTime} {control : Control} {s : σ} {h₁ h₂ : Host}
      {cs : List Call} :
      l.entry = some e → (e.redraw app l.app).run h = .ok ((control, s, e'), h₂) →
      Performs (app.onFrame { swapchain := e.swapchain, input := e.input, time } l.app) h₁
        (control, s) h₂ cs →
      (∀ c ∈ cs, c.isOfFrame) →
      Handles window options app h l (.window .redrawRequested)
        (.frame e.input time e.swapchain.viewport ::
          (cs ++ if control = .exit then stopCalls else []))
        { l with entry := if control = .exit then none else some e', app := s }

theorem Swapchain.resize_calls (s : Swapchain) (size : Size) (h : Host) :
    ∃ s' h' cs, Performs (s.resize size) h s' h' cs ∧ ∀ c ∈ cs, c.isResizing := by
  unfold resize
  split
  · have configured := performs_record (.configure { s.config with size }) h
    obtain ⟨depth, h₁, -, created⟩ := createDepth_performs s.depth.texture.format size
      (h.after (.configure { s.config with size }))
    exact ⟨_, h₁, _, configured.bind (created.bind (performs_pure _ h₁)), by simp [Call.isResizing]⟩
  · exact ⟨_, h, [], performs_pure _ h, by simp⟩

theorem Entry.resize_calls (e : Entry) (size : Size) (h : Host) :
    ∃ e' h' cs, Performs (e.resize size) h e' h' (cs ++ [.requestRedraw]) ∧ ∀ c ∈ cs,
    c.isResizing := by
  obtain ⟨s, h₁, cs, resized, only⟩ := e.swapchain.resize_calls size h
  have asked := performs_record .requestRedraw h₁
  exact ⟨_, _, cs, resized.bind (asked.bind (performs_pure _ _)), only⟩

theorem Entry.redraw_performs (guest : Guest σ) {e e' : Entry} {s s' : σ} {control : Control}
    {h h' : Host} (run : (e.redraw guest.toApp s).run h = .ok ((control, s', e'), h')) :
    ∃ cs time h₁, Performs (e.redraw guest.toApp s) h (control, s', e') h'
        (.frame e.input time e.swapchain.viewport :: cs) ∧
      Performs (guest.onFrame { swapchain := e.swapchain, input := e.input, time } s) h₁
        (control, s') h' cs ∧
      ∀ c ∈ cs, c.isOfFrame := by
  obtain ⟨measured, time, clock, h₁, h₂, measure, advance, note, call, rfl⟩ := redraw_eq_ok.1 run
  obtain ⟨cs, calls, only⟩ := guest.keeps call
  refine ⟨cs, time, h₂, ⟨run, ?_⟩, ⟨call, calls⟩, only⟩
  cases measure
  cases note
  rw [calls]
  change h.recorder.calls.push _ ++ cs.toArray = _
  rw [Array.push_eq_append, Array.append_assoc]
  simp

namespace Loop

variable {window : WindowOptions} {options : Options}

theorem noteSize_performs (c : Callback) (h : Host) : ∃ h', Performs (noteSize c) h () h' [] := by
  cases c with
  | window event =>
    cases size : event.newSize? with
    | some size' =>
      refine ⟨{ h with innerSize := size' }, ?_⟩
      simp only [noteSize, size]
      exact ⟨rfl, Array.append_empty.symm⟩
    | none =>
      refine ⟨h, ?_⟩
      simp only [noteSize, size]
      exact performs_pure _ h
  | resumed => exact ⟨h, performs_pure _ h⟩
  | aboutToWait => exact ⟨h, performs_pure _ h⟩

theorem close_performs (h : Host) :
    ∃ h', Performs Entry.close h () h' [.dropSurface, .dropWindow] :=
  ⟨_, (performs_record .dropSurface h).bind (performs_record .dropWindow _)⟩

theorem stop_performs (l : Loop σ) (h : Host) :
    ∃ h', Performs l.stop h { l with entry := none } h' stopCalls := by
  obtain ⟨h₁, close⟩ := close_performs h
  exact ⟨_, close.bind ((performs_record .exit h₁).bind (performs_pure _ _))⟩

theorem resume_handles (app : App σ) (l : Loop σ) (h : Host) :
    ∃ cs l' h', Performs (l.resume window options) h l' h' cs ∧
    Handles window options app h l .resumed cs l' := by
  obtain ⟨_ | e, failure, s⟩ := l
  · rcases Entry.create_performs window options h with
      ⟨error, h₁, unfit, create⟩ | ⟨e, h₁, fit, create⟩
    · have exit := performs_record .exit h₁
      exact ⟨_, _, _, create.bind (exit.bind (performs_pure _ _)), .failed rfl unfit create.run⟩
    · have asked := performs_record .requestRedraw h₁
      exact ⟨_, _, _, create.bind (asked.bind (performs_pure _ _)), .opened rfl fit create.run⟩
  · exact ⟨[], _, h, performs_pure _ h, .resumed rfl⟩

theorem aboutToWait_handles (app : App σ) (l : Loop σ) (h : Host) :
    ∃ cs l' h', Performs l.aboutToWait h l' h' cs ∧
    Handles window options app h l .aboutToWait cs l' := by
  let h₁ := h.after .waitForEvents
  have waits := performs_record .waitForEvents h
  have asked := performs_record .requestRedraw h₁
  unfold aboutToWait
  cases entry : l.entry.isSome with
  | true =>
    refine ⟨_, l, h₁.after .requestRedraw, ?_, .waiting⟩
    simp only [entry, if_true]
    exact waits.bind (asked.bind (performs_pure l _))
  | false =>
    refine ⟨_, l, h₁, ?_, .waiting⟩
    simp only [entry]
    exact waits.bind (performs_pure l h₁)

theorem redraw_handles (guest : Guest σ) {l : Loop σ} {e : Entry} (opened : l.entry = some e)
    (h : Host) :
    (∃ cs l' h', Performs (l.windowEvent guest.toApp e .redrawRequested) h l' h' cs ∧
      Handles window options guest.toApp h l (.window .redrawRequested) cs l') ∨
    ∃ crash, (e.redraw guest.toApp l.app).run h = .error crash ∧
      (l.windowEvent guest.toApp e .redrawRequested).run h = .error crash := by
  cases run : (e.redraw guest.toApp l.app).run h with
  | error crash => exact .inr ⟨crash, rfl, run_bind_of_error run⟩
  | ok result =>
    obtain ⟨⟨control, s, e'⟩, h₂⟩ := result
    obtain ⟨cs, time, h₁, redraw, call, only⟩ := Entry.redraw_performs guest run
    left
    by_cases exits : control = .exit
    · obtain ⟨h₃, stop⟩ := stop_performs { l with entry := some e', app := s } h₂
      refine ⟨_, _, h₃, ?_, .frame opened run call only⟩
      simp only [if_pos exits]
      refine redraw.bind ?_
      simp only [if_pos exits]
      exact stop
    · refine ⟨_, _, h₂, ?_, .frame opened run call only⟩
      simp only [if_neg exits, List.append_nil]
      refine redraw.bind_silent ?_
      simp only [if_neg exits]
      exact performs_pure _ h₂

theorem windowEvent_handles (app : App σ) {l : Loop σ} {e : Entry} (opened : l.entry = some e)
    {event : WindowEvent} (other : (Callback.window event).isRedraw = false) (h h₁ : Host) :
    ∃ cs l' h', Performs (l.windowEvent app (e.observe event) event) h₁ l' h' cs ∧
      Handles window options app h l (.window event) cs l' := by
  have isOpen : l.entry.isSome := by rw [opened]; rfl
  cases event
  case redrawRequested => cases other
  case closeRequested =>
    obtain ⟨h₂, stop⟩ := l.stop_performs h₁
    exact ⟨_, _, h₂, stop, .closed isOpen⟩
  case resized size =>
    obtain ⟨e', h₂, cs, resized, only⟩ := e.resize_calls size h₁
    exact ⟨_, _, h₂, resized.bind_silent (performs_pure _ h₂), .resized isOpen rfl only⟩
  case scaleFactorChanged scale size =>
    obtain ⟨e', h₂, cs, resized, only⟩ := e.resize_calls h₁.innerSize h₁
    exact ⟨_, _, h₂, performs_get_bind (resized.bind_silent (performs_pure _ h₂)),
      .resized isOpen rfl only⟩
  all_goals exact ⟨_, _, h₁, performs_pure _ h₁, .noted opened rfl rfl⟩

theorem step_handles (guest : Guest σ) (l : Loop σ) (c : Callback) (h : Host) :
    (∃ cs l' h', Performs (l.step window options guest.toApp c) h l' h' cs ∧
      Handles window options guest.toApp h l c cs l') ∨
    ∃ e crash, c = .window .redrawRequested ∧ l.entry = some e ∧
      (e.redraw guest.toApp l.app).run h = .error crash ∧
      (l.step window options guest.toApp c).run h = .error crash := by
  unfold step
  cases c with
  | resumed =>
    obtain ⟨cs, l', h', resumed, handles⟩ := l.resume_handles guest.toApp h
    exact .inl ⟨cs, l', h', (performs_pure () h).bind resumed, handles⟩
  | aboutToWait =>
    obtain ⟨cs, l', h', waited, handles⟩ := l.aboutToWait_handles guest.toApp h
    exact .inl ⟨cs, l', h', (performs_pure () h).bind waited, handles⟩
  | window event =>
    obtain ⟨h₁, noted⟩ := noteSize_performs (.window event) h
    cases entry : l.entry with
    | none => exact .inl ⟨[], l, h₁, noted.bind (performs_pure l h₁), .dropped entry⟩
    | some e =>
      cases redraw : (Callback.window event).isRedraw with
      | false =>
        obtain ⟨cs, l', h', handled, handles⟩ := windowEvent_handles guest.toApp entry redraw h h₁
        exact .inl ⟨cs, l', h', noted.bind handled, handles⟩
      | true =>
        cases Callback.eq_of_isRedraw redraw
        rcases redraw_handles guest entry h with
          ⟨cs, l', h', handled, handles⟩ | ⟨crash, crashed, stepped⟩
        · exact .inl ⟨cs, l', h', (performs_pure () h).bind handled, handles⟩
        · refine .inr ⟨e, crash, rfl, rfl, crashed, ?_⟩
          exact (run_bind_of_ok (performs_pure () h).run).trans stepped

end Loop

/-! ## Runs in a changing world -/

/-- What surrounds a session, less the calls that it has made. -/
structure Outside where
  platform : Platform
  innerSize : Size
  acquires : List (Option SurfaceError)
  measured : List Duration

/-- A callback, and what the outside does before it. -/
structure Occasion where
  change : Outside → Outside
  callback : Callback

/-- A callback before which nothing happens. -/
def Occasion.still (c : Callback) : Occasion :=
  { change := id, callback := c }

namespace Host

/-- What surrounds the session. -/
def outside (h : Host) : Outside :=
  { platform := h.platform, innerSize := h.innerSize, acquires := h.acquires,
    measured := h.measured }

/-- The host after a change of the outside. -/
def changed (h : Host) (change : Outside → Outside) : Host :=
  let o := change h.outside
  { platform := o.platform, innerSize := o.innerSize, acquires := o.acquires, measured := o.measured
    recorder := h.recorder }

/-- The host with no call made yet. -/
def hushed (h : Host) : Host :=
  { h with recorder := { h.recorder with calls := #[] } }

/-- The host that a callback finds, before it has made a call. -/
def awaiting (h : Host) (o : Occasion) : Host :=
  (h.changed o.change).hushed

end Host

/-- Handles callbacks in a changing world, and gives the calls made during each. -/
def Loop.stepsUnder (window : WindowOptions) (options : Options) (app : App σ) (l : Loop σ) :
    List Occasion → Session (Loop σ × List (List Call))
  | [] => return (l, [])
  | o :: rest => do
      modify (·.changed o.change)
      let (l, calls) ← listen (l.step window options app o.callback)
      let (l, later) ← l.stepsUnder window options app rest
      return (l, calls :: later)

/-- Runs an application in a changing world. -/
def App.runUnder (app : App σ) (start : σ) (window : WindowOptions) (options : Options)
    (occasions : List Occasion) : Session Report := do
  let faults := (← get).platform.faults
  match faults.eventLoop with
  | some cause => return { result := .error (.eventLoop cause), steps := [], closing := [] }
  | none =>
      let (l, steps) ← (Loop.initial start).stepsUnder window options app occasions
      let (_, closing) ← listen l.finish
      return { result := l.result faults, steps, closing }

theorem Loop.stepsUnder_still (window : WindowOptions) (options : Options) (app : App σ)
    (l : Loop σ) (cs : List Callback) :
    l.stepsUnder window options app (cs.map .still) = l.steps window options app cs := by
  induction cs generalizing l with
  | nil => rfl
  | cons c cs ih =>
    simp only [List.map, stepsUnder, steps, ih]
    rfl

/-- A run in a world that changes only by what is done to it is a run. -/
theorem App.runUnder_still (app : App σ) (start : σ) (window : WindowOptions) (options : Options)
    (cs : List Callback) :
    app.runUnder start window options (cs.map .still) = app.run start window options cs := by
  unfold run
  rw [← Loop.stepsUnder_still]
  rfl

/-! ## Turns -/

/-- A callback that has been handled: the host and the loop that it found, the calls that it made,
and the loop that it left. -/
structure Turn (σ : Type) where
  callback : Callback
  host : Host
  before : Loop σ
  calls : List Call
  after : Loop σ

/-- The turns of a loop, up to a frame that crashes. -/
def Loop.turns (window : WindowOptions) (options : Options) (app : App σ) (l : Loop σ) (h : Host) :
    List Occasion → List (Turn σ)
  | [] => []
  | o :: rest =>
      match (l.step window options app o.callback).run (h.awaiting o) with
      | .ok (l', h') =>
          ⟨o.callback, h.awaiting o, l, h'.recorder.calls.toList, l'⟩ ::
            l'.turns window options app h' rest
      | .error _ => []

/-- The loop after some turns. -/
def Loop.afterTurns (l : Loop σ) (turns : List (Turn σ)) : Loop σ :=
  (turns.getLast?.map Turn.after).getD l

/-- The next frame of the open window may crash. -/
def Loop.Crashes (l : Loop σ) (app : App σ) (crash : Crash) : Prop :=
  ∃ e h, l.entry = some e ∧ (e.redraw app l.app).run h = .error crash

/-- The turns of a run: none if there is no event loop. -/
def App.turns (app : App σ) (start : σ) (window : WindowOptions) (options : Options) (h : Host)
    (occasions : List Occasion) : List (Turn σ) :=
  if h.platform.faults.eventLoop.isSome then []
  else (Loop.initial start).turns window options app h occasions

theorem Session.run_listen_of_ok {β : Type} {m : Session β} {h h' : Host} {b : β}
    (run : m.run h.hushed = .ok (b, h')) :
    (listen m).run h = .ok ((b, h'.recorder.calls.toList), h') := by
  have hush : (modify Host.hushed : Session Unit).run h = .ok ((), h.hushed) := rfl
  exact (run_bind_of_ok hush).trans (run_bind_of_ok run)

theorem Session.run_listen_of_error {β : Type} {m : Session β} {h : Host} {crash : Crash}
    (run : m.run h.hushed = .error crash) : (listen m).run h = .error crash := by
  have hush : (modify Host.hushed : Session Unit).run h = .ok ((), h.hushed) := rfl
  exact (run_bind_of_ok hush).trans (run_bind_of_error run)

namespace Loop

variable {window : WindowOptions} {options : Options}

theorem afterTurns_cons (l : Loop σ) (t : Turn σ) (turns : List (Turn σ)) :
    l.afterTurns (t :: turns) = t.after.afterTurns turns := by
  unfold afterTurns
  rw [List.getLast?_cons]
  cases turns.getLast? <;> rfl

/-- What the turns of a loop are: each starts where the one before it ends, and does what its
callback can do. -/
inductive Follows (window : WindowOptions) (options : Options) (app : App σ) :
    Loop σ → List (Turn σ) → Prop
  | nil {l : Loop σ} : Follows window options app l []
  | cons {t : Turn σ} {turns : List (Turn σ)} :
      Handles window options app t.host t.before t.callback t.calls t.after →
      Follows window options app t.after turns → Follows window options app t.before (t :: turns)

theorem Follows.take {app : App σ} {l : Loop σ} {turns : List (Turn σ)}
    (follows : Follows window options app l turns)
    (n : Nat) : Follows window options app l (turns.take n) := by
  induction follows generalizing n with
  | nil =>
    rw [List.take_nil]
    exact .nil
  | cons handles _ ih =>
    cases n with
    | zero => exact .nil
    | succ n => exact .cons handles (ih n)

theorem Follows.handles {app : App σ} {l : Loop σ} {turns : List (Turn σ)}
    (follows : Follows window options app l turns) {t : Turn σ} (mem : t ∈ turns) :
    Handles window options app t.host t.before t.callback t.calls t.after := by
  induction follows with
  | nil => cases mem
  | cons handles _ ih =>
    rcases List.mem_cons.1 mem with rfl | later
    · exact handles
    · exact ih later

section Cons

variable {app : App σ} {l l' : Loop σ} {o : Occasion} {rest : List Occasion} {h h' : Host}
  {crash : Crash}

theorem turns_cons_of_ok
    (run : (l.step window options app o.callback).run (h.awaiting o) = .ok (l', h')) :
    l.turns window options app h (o :: rest) =
      ⟨o.callback, h.awaiting o, l, h'.recorder.calls.toList,
        l'⟩ :: l'.turns window options app h' rest := by
  rw [turns, run]

theorem turns_cons_of_error
    (run : (l.step window options app o.callback).run (h.awaiting o) = .error crash) :
    l.turns window options app h (o :: rest) = [] := by
  rw [turns, run]

theorem run_stepsUnder_cons_of_ok {result : Loop σ × List (List Call)} {h'' : Host}
    (run : (l.step window options app o.callback).run (h.awaiting o) = .ok (l', h'))
    (later : (l'.stepsUnder window options app rest).run h' = .ok (result, h'')) :
    (l.stepsUnder window options app (o :: rest)).run h =
      .ok ((result.1, h'.recorder.calls.toList :: result.2), h'') := by
  have change : (modify (·.changed o.change) : Session Unit).run h = .ok ((), h.changed o.change) :=
    rfl
  rw [stepsUnder, run_bind_of_ok change, run_bind_of_ok (run_listen_of_ok run),
    run_bind_of_ok later]
  rfl

theorem run_stepsUnder_cons_of_error
    (run : (l.step window options app o.callback).run (h.awaiting o) = .error crash) :
    (l.stepsUnder window options app (o :: rest)).run h = .error crash := by
  have change : (modify (·.changed o.change) : Session Unit).run h = .ok ((), h.changed o.change) :=
    rfl
  rw [stepsUnder, run_bind_of_ok change, run_bind_of_error (run_listen_of_error run)]

theorem run_stepsUnder_cons_of_later_error
    (run : (l.step window options app o.callback).run (h.awaiting o) = .ok (l', h'))
    (later : (l'.stepsUnder window options app rest).run h' = .error crash) :
    (l.stepsUnder window options app (o :: rest)).run h = .error crash := by
  have change : (modify (·.changed o.change) : Session Unit).run h = .ok ((), h.changed o.change) :=
    rfl
  rw [stepsUnder, run_bind_of_ok change, run_bind_of_ok (run_listen_of_ok run),
    run_bind_of_error later]

end Cons

theorem turns_follows (guest : Guest σ) (l : Loop σ) (h : Host) (occasions : List Occasion) :
    Follows window options guest.toApp l (l.turns window options guest.toApp h occasions) := by
  induction occasions generalizing l h with
  | nil => exact .nil
  | cons o rest ih =>
    rcases l.step_handles guest o.callback (h.awaiting o) with
      ⟨cs, l', h', performs, handles⟩ | ⟨e, crash, -, -, -, crashed⟩
    · have calls : h'.recorder.calls.toList = cs := by
        rw [performs.calls]
        simp [Host.awaiting, Host.hushed]
      rw [turns_cons_of_ok performs.run, calls]
      exact .cons (t := ⟨o.callback, h.awaiting o, l, cs, l'⟩) handles (ih l' h')
    · rw [turns_cons_of_error crashed]
      exact .nil

/-- Callbacks are handled to the last one, or up to a frame of the open window that crashes. -/
theorem stepsUnder_cases (guest : Guest σ) (l : Loop σ) (h : Host) (occasions : List Occasion)
    {turns : List (Turn σ)} (eq : l.turns window options guest.toApp h occasions = turns) :
    (∃ h', (l.stepsUnder window options guest.toApp occasions).run h =
        .ok ((l.afterTurns turns, turns.map Turn.calls), h') ∧
      turns.map Turn.callback = occasions.map Occasion.callback) ∨
    ∃ crash rest, (l.stepsUnder window options guest.toApp occasions).run h = .error crash ∧
      occasions.map Occasion.callback = turns.map Turn.callback ++
        .window .redrawRequested :: rest ∧
      (l.afterTurns turns).Crashes guest.toApp crash := by
  -- each turn starts from the loop and the host that the one before it has left
  induction occasions generalizing l h turns with
  | nil =>
    cases eq
    exact .inl ⟨h, rfl, rfl⟩
  | cons o rest ih =>
    rcases l.step_handles guest o.callback (h.awaiting o) with
      ⟨cs, l', h₁, performs, -⟩ | ⟨e, crash, redraw, opened, frame, crashed⟩
    · rw [turns_cons_of_ok performs.run] at eq
      subst eq
      rw [afterTurns_cons, List.map_cons, List.map_cons, List.map_cons]
      rcases ih l' h₁ rfl with ⟨h₂, run, all⟩ | ⟨crash, later, run, upto, crashes⟩
      · exact .inl ⟨h₂, run_stepsUnder_cons_of_ok performs.run run, by rw [all]⟩
      · exact .inr ⟨crash, later,
          run_stepsUnder_cons_of_later_error performs.run run, by rw [upto]; rfl, crashes⟩
    · rw [turns_cons_of_error crashed] at eq
      subst eq
      refine .inr ⟨crash, rest.map Occasion.callback, run_stepsUnder_cons_of_error crashed, ?_, e,
        _, opened, frame⟩
      rw [List.map_cons, redraw]
      rfl

theorem finish_performs (l : Loop σ) (h : Host) :
    ∃ h', Performs l.finish h () h'
      (if l.entry.isSome then [.dropSurface, .dropWindow] else []) := by
  unfold finish
  split
  · exact close_performs h
  · exact ⟨h, performs_pure () h⟩

theorem run_listen_finish (l : Loop σ) (h : Host) :
    ∃ h', (listen l.finish).run h =
      .ok (((), if l.entry.isSome then [.dropSurface, .dropWindow] else []), h') := by
  obtain ⟨h', finish⟩ := l.finish_performs h.hushed
  have calls := finish.calls
  rw [show h.hushed.recorder.calls = #[] from rfl, Array.empty_append] at calls
  refine ⟨h', ?_⟩
  rw [run_listen_of_ok finish.run, calls]

end Loop

namespace App

variable {window : WindowOptions} {options : Options} {start : σ} {h : Host}

theorem run_runUnder_of_eventLoop (app : App σ) {cause : String}
    (fault : h.platform.faults.eventLoop = some cause) (occasions : List Occasion) :
    (app.runUnder start window options occasions).run h =
      .ok ({ result := .error (.eventLoop cause), steps := [], closing := [] }, h) := by
  rw [runUnder, run_bind_of_ok (performs_get h).run]
  simp only [fault]
  rfl

theorem turns_of_eventLoop (app : App σ) {cause : String}
    (fault : h.platform.faults.eventLoop = some cause)
    (occasions : List Occasion) : app.turns start window options h occasions = [] := by
  rw [turns, fault]
  rfl

theorem turns_of_no_fault (app : App σ) (sound : h.platform.faults.eventLoop = none)
    (occasions : List Occasion) :
    app.turns start window options h occasions =
      (Loop.initial start).turns window options app h occasions := by
  rw [turns, sound]
  rfl

/-- A run handles its callbacks to the last one, or up to a frame of the open window that
crashes. -/
theorem runUnder_cases (guest : Guest σ) (sound : h.platform.faults.eventLoop = none)
    (occasions : List Occasion) {turns : List (Turn σ)}
    (eq : guest.turns start window options h occasions = turns) :
    (∃ h', (guest.runUnder start window options occasions).run h = .ok (
        { result := ((Loop.initial start).afterTurns turns).result h.platform.faults
          steps := turns.map Turn.calls
          closing :=
            if ((Loop.initial start).afterTurns turns).entry.isSome then [.dropSurface, .dropWindow]
            else [] }, h') ∧
      turns.map Turn.callback = occasions.map Occasion.callback) ∨
    ∃ crash rest, (guest.runUnder start window options occasions).run h = .error crash ∧
      occasions.map Occasion.callback = turns.map Turn.callback ++
        .window .redrawRequested :: rest ∧
      ((Loop.initial start).afterTurns turns).Crashes guest.toApp crash := by
  rw [turns_of_no_fault _ sound] at eq
  rw [runUnder, run_bind_of_ok (performs_get h).run]
  simp only [sound]
  rcases (Loop.initial start).stepsUnder_cases guest h occasions eq with
    ⟨h₁, run, all⟩ | ⟨crash, rest, run, upto, crashes⟩
  · obtain ⟨h₂, closing⟩ := ((Loop.initial start).afterTurns turns).run_listen_finish h₁
    refine .inl ⟨h₂, ?_, all⟩
    rw [run_bind_of_ok run]
    exact run_bind_of_ok closing
  · exact .inr ⟨crash, rest, run_bind_of_error run, upto, crashes⟩

end App

end GroundPlane
