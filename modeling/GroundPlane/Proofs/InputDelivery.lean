import Mathlib
import GroundPlane.Session.Playback
import GroundPlane.Proofs.Session

/-!
# Input reaches each frame once

A frame tells the application what is held down, which depends on all events since the window
opened, and what has changed, which depends on the events since the last frame alone. `Life` are the
histories of one window, and `frames_receive_input_once` says what each of its frames receives,
whatever the application does with it: no event is lost, repeated or carried over.
-/

namespace GroundPlane

open Gpu Session

/-! ## The input of callbacks -/

/-- The input event that a callback brings. -/
def Callback.toInput? : Callback → Option (InputEvent Float32)
  | .window event => event.toInput?
  | _ => none

/-- The callback calls for a frame. -/
def Callback.isRedraw : Callback → Bool
  | .window .redrawRequested => true
  | _ => false

theorem Callback.eq_of_isRedraw {c : Callback} (redraw : c.isRedraw) :
    c = .window .redrawRequested := by
  unfold isRedraw at redraw
  split at redraw
  · rfl
  · cases redraw

namespace Input

/-- The input after some callbacks. -/
def after (i : Input Float32) (cs : List Callback) : Input Float32 :=
  (cs.filterMap Callback.toInput?).foldl apply i

theorem after_append (i : Input Float32) (cs ds : List Callback) :
    i.after (cs ++ ds) = (i.after cs).after ds := by
  simp [after]

/-- What is held down after an event does not depend on the changes noted so far. -/
theorem apply_state (s : InputState Float32) (d d' : InputDelta Float32)
    (event : InputEvent Float32) : (apply ⟨s, d⟩ event).state = (apply ⟨s, d'⟩ event).state := by
  cases event with
  | focus gained => rfl
  | pointerMove x y => rfl
  | pointerLeave => rfl
  | wheel lines => rfl
  | button b action =>
    cases action <;> simp only [apply, pressButton, releaseButton] <;> split <;> rfl
  | key k action isRepeat =>
    cases action with
    | press => simp only [apply, pressKey]; split <;> rfl
    | release => rfl

theorem after_state {i j : Input Float32} (same : i.state = j.state) (cs : List Callback) :
    (i.after cs).state = (j.after cs).state := by
  unfold after
  induction cs.filterMap Callback.toInput? generalizing i j with
  | nil => exact same
  | cons event events ih =>
    obtain ⟨s, d⟩ := i
    obtain ⟨s', d'⟩ := j
    cases same
    exact ih (apply_state s d d' event)

end Input

/-! ## What a callback does to an open window -/

variable {σ : Type} {window : WindowOptions} {options : Options} {app : App σ} {l l' : Loop σ}
  {e e' : Entry} {h h' : Host} {s s' : σ} {control : Control}

theorem FrameClock.advance_index {c clock : FrameClock} {measured : Duration} {time : FrameTime}
    (advance : c.advance? measured = some (time, clock)) :
    time.index = c.index ∧ clock.index = c.index + 1 := by
  cases sum : c.elapsed.add? (.clamp c.shortest c.longest measured) with
  | none =>
    rw [advance?, advance_of_overflow sum] at advance
    cases advance
  | some elapsed =>
    rw [advance?, advance_of_sum sum] at advance
    cases advance
    exact ⟨rfl, rfl⟩

namespace Entry

theorem observe_eq (e : Entry) (event : WindowEvent) :
    e.observe event = { e with input := e.input.after [.window event] } := by
  unfold observe Input.after
  simp only [List.filterMap_cons, List.filterMap_nil, Callback.toInput?]
  cases event.toInput? <;> rfl

theorem create_ok (run : (create window options).run h = .ok (.ok e, h')) :
    e.input = .initial ∧ e.clock = .standard := by
  unfold create at run
  obtain ⟨_, h₁, -, run⟩ := run_bind_eq_ok.1 run
  obtain ⟨host, h₂, -, run⟩ := run_bind_eq_ok.1 run
  split at run
  · cases run
  · obtain ⟨answer, h₃, -, run⟩ := run_bind_eq_ok.1 run
    cases answer <;> cases run
    exact ⟨rfl, rfl⟩

theorem resize_ok {size : Size} (run : (e.resize size).run h = .ok (e', h')) :
    e'.input = e.input ∧ e'.clock = e.clock := by
  unfold resize at run
  obtain ⟨swapchain, h₁, _, run⟩ := run_bind_eq_ok.1 run
  cases run
  exact ⟨rfl, rfl⟩

/-- A frame is one call of the application, with the input so far and the next time of the clock. -/
theorem redraw_eq_ok : (e.redraw app s).run h = .ok ((control, s', e'), h') ↔
    ∃ measured time clock h₁ h₂, measure.run h = .ok (measured, h₁) ∧
      e.clock.advance? measured = some (time, clock) ∧
      (record (.frame e.input time e.swapchain.viewport)).run h₁ = .ok ((), h₂) ∧
      (app.onFrame { swapchain := e.swapchain, input := e.input, time } s).run h₂ =
        .ok ((control, s'), h') ∧
      e' = { e with clock, input := e.input.nextFrame } := by
  unfold redraw
  constructor
  · intro run
    obtain ⟨measured, h₁, measure, run⟩ := run_bind_eq_ok.1 run
    cases advance : e.clock.advance? measured with
    | none =>
      simp only [advance] at run
      cases run
    | some next =>
      obtain ⟨time, clock⟩ := next
      simp only [advance] at run
      obtain ⟨_, h₂, note, run⟩ := run_bind_eq_ok.1 run
      obtain ⟨⟨control, s'⟩, h₃, call, run⟩ := run_bind_eq_ok.1 run
      cases run
      exact ⟨measured, time, clock, h₁, h₂, measure, advance, note, call, rfl⟩
  · rintro ⟨measured, time, clock, h₁, h₂, measure, advance, note, call, rfl⟩
    refine run_bind_eq_ok.2 ⟨measured, h₁, measure, ?_⟩
    simp only [advance]
    exact run_bind_eq_ok.2 ⟨(), h₂, note, run_bind_eq_ok.2 ⟨(control, s'), h', call, rfl⟩⟩

end Entry

namespace Loop

theorem stop_ok (run : l.stop.run h = .ok (l', h')) : l' = { l with entry := none } := by
  cases run
  rfl

theorem windowEvent_redraw (run : (l.windowEvent app e .redrawRequested).run h = .ok (l', h')) :
    ∃ measured time clock control h₁ h₂, e.clock.advance? measured = some (time, clock) ∧
      (app.onFrame { swapchain := e.swapchain, input := e.input, time } l.app).run h₁ =
        .ok ((control, l'.app), h₂) ∧
      ∀ e' ∈ l'.entry, e' = { e with clock, input := e.input.nextFrame } := by
  unfold windowEvent at run
  obtain ⟨⟨control, s, e'⟩, h₂, redraw, run⟩ := run_bind_eq_ok.1 run
  obtain ⟨measured, time, clock, _, h₁, -, advance, -, call, rfl⟩ := Entry.redraw_eq_ok.1 redraw
  by_cases hexit : control = .exit
  · simp only [hexit, if_true] at run
    cases stop_ok run
    exact ⟨measured, time, clock, control, h₁, h₂, advance, call, by simp⟩
  · simp only [hexit, if_false] at run
    cases run
    exact ⟨measured, time, clock, control, h₁, h', advance, call, by simp⟩

theorem windowEvent_of_ne_redraw {event : WindowEvent} (other : event ≠ .redrawRequested)
    (run : (l.windowEvent app e event).run h = .ok (l', h')) :
    l'.app = l.app ∧ ∀ e' ∈ l'.entry, e'.input = e.input ∧ e'.clock = e.clock := by
  unfold windowEvent at run
  split at run
  · cases stop_ok run
    simp
  · obtain ⟨e', h₁, resized, run⟩ := run_bind_eq_ok.1 run
    cases run
    simpa using Entry.resize_ok resized
  · obtain ⟨host, h₁, _, run⟩ := run_bind_eq_ok.1 run
    obtain ⟨e', h₂, resized, run⟩ := run_bind_eq_ok.1 run
    cases run
    simpa using Entry.resize_ok resized
  · exact absurd rfl other
  · cases run
    simp

/-- A callback that calls for a frame makes one call of the application, and the changes of input
start anew after it. -/
theorem step_redraw (opened : l.entry = some e)
    (run : (l.step window options app (.window .redrawRequested)).run h = .ok (l', h')) :
    ∃ measured time clock control h₁ h₂, e.clock.advance? measured = some (time, clock) ∧
      (app.onFrame { swapchain := e.swapchain, input := e.input, time } l.app).run h₁ =
        .ok ((control, l'.app), h₂) ∧
      ∀ e' ∈ l'.entry, e' = { e with clock, input := e.input.nextFrame } := by
  unfold step at run
  obtain ⟨_, h₁, -, run⟩ := run_bind_eq_ok.1 run
  simp only [opened] at run
  exact windowEvent_redraw run

/-- Any other callback makes no call of the application and adds its event to the input. -/
theorem step_of_not_redraw {c : Callback} (opened : l.entry = some e) (other : c.isRedraw = false)
    (run : (l.step window options app c).run h = .ok (l', h')) :
    l'.app = l.app ∧ ∀ e' ∈ l'.entry, e'.input = e.input.after [c] ∧ e'.clock = e.clock := by
  unfold step at run
  obtain ⟨_, h₁, -, run⟩ := run_bind_eq_ok.1 run
  cases c with
  | resumed =>
    simp only [resume, opened] at run
    cases run
    refine ⟨rfl, fun e' still => ?_⟩
    cases opened.symm.trans still
    exact ⟨rfl, rfl⟩
  | aboutToWait =>
    simp only [aboutToWait, opened] at run
    cases run
    refine ⟨rfl, fun e' still => ?_⟩
    cases opened.symm.trans still
    exact ⟨rfl, rfl⟩
  | window event =>
    simp only [opened, Entry.observe_eq] at run
    refine windowEvent_of_ne_redraw ?_ run
    rintro rfl
    cases other

theorem step_resumed (closed : l.entry = none)
    (run : (l.step window options app .resumed).run h = .ok (l', h')) :
    l'.app = l.app ∧ ∀ e ∈ l'.entry, e.input = .initial ∧ e.clock = .standard := by
  unfold step resume at run
  obtain ⟨_, h₁, -, run⟩ := run_bind_eq_ok.1 run
  simp only [closed] at run
  obtain ⟨answer, h₂, create, run⟩ := run_bind_eq_ok.1 run
  cases answer with
  | error cause =>
    cases run
    simp
  | ok entry =>
    cases run
    simpa using Entry.create_ok create

end Loop

/-! ## The frames of a window -/

/-- The application that also keeps the frames that it is given, in order. Where the application
crashes it exits, so that the frame of the crash is kept too. -/
def App.logging (app : App σ) : App (σ × List FrameContext) where
  onFrame ctx := fun (s, log) h =>
    match (app.onFrame ctx s).run h with
    | .ok ((control, s), h) => .ok ((control, s, log ++ [ctx]), h)
    | .error _ => .ok ((.exit, s, log ++ [ctx]), h)

theorem App.logging_run (app : App σ) (ctx : FrameContext) (s : σ) (log : List FrameContext)
    (h : Host) :
    (app.logging.onFrame ctx (s, log)).run h =
      match (app.onFrame ctx s).run h with
      | .ok ((control, s), h) => .ok ((control, s, log ++ [ctx]), h)
      | .error _ => .ok ((.exit, s, log ++ [ctx]), h) :=
  rfl

theorem App.logging_onFrame {ctx : FrameContext} {s s' : σ × List FrameContext}
    (run : (app.logging.onFrame ctx s).run h = .ok ((control, s'), h')) : s'.2 = s.2 ++ [ctx] := by
  rw [App.logging_run] at run
  split at run <;> cases run <;> rfl

/-- A loop without a window opens one, and handles the callbacks `cs` while it is open, the last of
which may close it. Between callbacks the outside may change in any way. -/
inductive Life (window : WindowOptions) (options : Options) (app : App σ) (start : Loop σ) :
    List Callback → Loop σ → Prop
  | opened {l : Loop σ} {h h' : Host} : start.entry = none →
      (start.step window options app .resumed).run h = .ok (l, h') → l.entry.isSome →
      Life window options app start [] l
  | next {cs : List Callback} {c : Callback} {l l' : Loop σ} {h h' : Host} :
      Life window options app start cs l → l.entry.isSome →
      (l.step window options app c).run h = .ok (l', h') →
      Life window options app start (cs ++ [c]) l'

/-- Callbacks up to the last frame, if there was one, and callbacks since then. -/
structure Round (earlier current : List Callback) : Prop where
  last : ∀ c ∈ earlier.getLast?, c.isRedraw
  quiet : ∀ c ∈ current, c.isRedraw = false

/-- What a frame has to tell after the callbacks of a round. -/
structure FrameContext.Tells (ctx : FrameContext) (earlier current : List Callback) : Prop where
  state : ctx.input.state = (Input.initial.after (earlier ++ current)).state
  delta : ctx.input.delta =
    (Input.after ⟨(Input.initial.after earlier).state, .empty⟩ current).delta
  index : ctx.time.index = .ofNat (earlier.countP Callback.isRedraw)

/-- The callbacks call for a frame after `k` others, and `ctx` tells what it has to. -/
def FrameContext.Answers (ctx : FrameContext) (cs : List Callback) (k : Nat) : Prop :=
  ∃ earlier current later, cs = earlier ++ current ++ .window .redrawRequested :: later ∧
    Round earlier current ∧ earlier.countP Callback.isRedraw = k ∧ ctx.Tells earlier current

theorem FrameContext.Answers.append {ctx : FrameContext} {cs : List Callback} {k : Nat}
    (answers : ctx.Answers cs k) (ds : List Callback) : ctx.Answers (cs ++ ds) k := by
  obtain ⟨earlier, current, later, rfl, answers⟩ := answers
  exact ⟨earlier, current, later ++ ds, by simp, answers⟩

namespace Round

variable {earlier current : List Callback}

theorem countP_append (round : Round earlier current) :
    (earlier ++ current).countP Callback.isRedraw = earlier.countP Callback.isRedraw := by
  have quiet : current.countP Callback.isRedraw = 0 := by simpa using round.quiet
  rw [List.countP_append, quiet, Nat.add_zero]

theorem push (round : Round earlier current) {c : Callback} (other : c.isRedraw = false) :
    Round earlier (current ++ [c]) := by
  refine ⟨round.last, fun d member => ?_⟩
  rcases List.mem_append.1 member with member | member
  · exact round.quiet d member
  · rw [List.mem_singleton.1 member, other]

theorem closed (cs : List Callback) : Round (cs ++ [.window .redrawRequested]) [] := by
  refine ⟨fun c last => ?_, nofun⟩
  rw [List.getLast?_concat] at last
  cases last
  rfl

end Round

/-- The window holds what its next frame has to tell. -/
structure Entry.Holds (e : Entry) (earlier current : List Callback) : Prop where
  input : e.input = Input.after ⟨(Input.initial.after earlier).state, .empty⟩ current
  index : e.clock.index = .ofNat (earlier.countP Callback.isRedraw)

namespace Entry.Holds

variable {earlier current : List Callback} {measured : Duration} {time : FrameTime}
  {clock : FrameClock}

theorem state (holds : e.Holds earlier current) :
    e.input.state = (Input.initial.after (earlier ++ current)).state := by
  rw [holds.input, Input.after_append]
  refine Input.after_state ?_ current
  rfl

theorem tells (holds : e.Holds earlier current)
    (advance : e.clock.advance? measured = some (time, clock)) :
    FrameContext.Tells { swapchain := e.swapchain, input := e.input, time } earlier current where
  state := holds.state
  delta := by rw [holds.input]
  index := by rw [(FrameClock.advance_index advance).1, holds.index]

theorem push (holds : e.Holds earlier current) {c : Callback} (input : e'.input = e.input.after [c])
    (clock : e'.clock = e.clock) : e'.Holds earlier (current ++ [c]) where
  input := by rw [input, holds.input, Input.after_append]
  index := by rw [clock, holds.index]

theorem closed (holds : e.Holds earlier current) (round : Round earlier current)
    (advance : e.clock.advance? measured = some (time, clock)) :
    { e with clock, input := e.input.nextFrame : Entry }.Holds
      (earlier ++ current ++ [.window .redrawRequested]) [] where
  input := by
    change (⟨e.input.state, .empty⟩ : Input Float32) = _
    rw [holds.state, Input.after_append _ (earlier ++ current)]
    rfl
  index := by
    change clock.index = _
    rw [(FrameClock.advance_index advance).2, holds.index, List.countP_append, round.countP_append]
    exact (UInt64.ofNat_add _ 1).symm

end Entry.Holds

/-- The callbacks of a window end with a round, its frames so far have told what they had to, and
the window holds what the next frame has to tell. -/
structure Delivery (cs : List Callback) (frames : List FrameContext) (entry : Option Entry)
    (earlier current : List Callback) : Prop where
  split : cs = earlier ++ current
  round : Round earlier current
  length : frames.length = earlier.countP Callback.isRedraw
  answers : ∀ (k : Nat) (ctx : FrameContext), frames[k]? = some ctx → ctx.Answers cs k
  holds : ∀ e ∈ entry, e.Holds earlier current

namespace Delivery

variable {cs earlier current : List Callback} {frames : List FrameContext}

theorem opened (entry : Option Entry)
    (fresh : ∀ e ∈ entry, e.input = .initial ∧ e.clock = .standard) :
    Delivery [] [] entry [] [] where
  split := rfl
  round := ⟨nofun, nofun⟩
  length := rfl
  answers k ctx member := by simp at member
  holds e he := by
    obtain ⟨input, clock⟩ := fresh e he
    refine ⟨?_, ?_⟩
    · rw [input]
      rfl
    · rw [clock]
      rfl

theorem push (delivery : Delivery cs frames (some e) earlier current) {c : Callback}
    {entry : Option Entry} (other : c.isRedraw = false)
    (adds : ∀ e' ∈ entry, e'.input = e.input.after [c] ∧ e'.clock = e.clock) :
    Delivery (cs ++ [c]) frames entry earlier (current ++ [c]) where
  split := by rw [delivery.split, List.append_assoc]
  round := delivery.round.push other
  length := delivery.length
  answers k ctx member := (delivery.answers k ctx member).append [c]
  holds e' he := (delivery.holds e rfl).push (adds e' he).1 (adds e' he).2

/-- A frame answers the callback that calls for it, and a new round begins. -/
theorem frame (delivery : Delivery cs frames (some e) earlier current) {measured : Duration}
    {time : FrameTime} {clock : FrameClock} {entry : Option Entry}
    (advance : e.clock.advance? measured = some (time, clock))
    (anew : ∀ e' ∈ entry, e' = { e with clock, input := e.input.nextFrame }) :
    Delivery (cs ++ [.window .redrawRequested])
      (frames ++ [{ swapchain := e.swapchain, input := e.input, time }]) entry
      (earlier ++ current ++ [.window .redrawRequested]) [] where
  split := by rw [delivery.split, List.append_nil]
  round := .closed _
  length := by
    rw [List.length_append, List.countP_append, delivery.round.countP_append, delivery.length]
    rfl
  answers k ctx member := by
    rw [List.getElem?_append] at member
    split at member
    next => exact (delivery.answers k ctx member).append _
    next beyond =>
      obtain ⟨inside, rfl⟩ := List.getElem?_eq_some_iff.1 member
      have hk : frames.length = k := by
        rw [List.length_singleton] at inside
        omega
      refine ⟨earlier, current, [], by rw [delivery.split], delivery.round, ?_, ?_⟩
      · rw [← delivery.length, hk]
      · simpa using (delivery.holds e rfl).tells advance
  holds e' he := by
    rw [anew e' he]
    exact (delivery.holds e rfl).closed delivery.round advance

end Delivery

/-! ## Keeping the frames of any application -/

/-- The loop of an application, seen as that of the application that keeps its frames. -/
def Loop.withLog (l : Loop σ) (log : List FrameContext) : Loop (σ × List FrameContext) :=
  { entry := l.entry, failure := l.failure, app := (l.app, log) }

theorem Entry.redraw_logging (log : List FrameContext)
    (run : (e.redraw app s).run h = .ok ((control, s', e'), h')) :
    ∃ ctx, (e.redraw app.logging (s, log)).run h = .ok ((control, (s', log ++ [ctx]), e'), h') := by
  obtain ⟨measured, time, clock, h₁, h₂, measure, advance, note, call, rfl⟩ := redraw_eq_ok.1 run
  refine ⟨⟨e.swapchain, e.input, time⟩, redraw_eq_ok.2 ?_⟩
  refine ⟨measured, time, clock, h₁, h₂, measure, advance, note, ?_, rfl⟩
  rw [App.logging_run, call]

namespace Loop

theorem resume_withLog (log : List FrameContext)
    (run : (l.resume window options).run h = .ok (l', h')) :
    ((l.withLog log).resume window options).run h = .ok (l'.withLog log, h') := by
  unfold resume at run ⊢
  cases entry : l.entry with
  | some e =>
    simp only [entry] at run
    cases run
    simp only [withLog, entry]
    rfl
  | none =>
    simp only [entry] at run
    obtain ⟨answer, h₁, create, run⟩ := run_bind_eq_ok.1 run
    simp only [withLog, entry]
    refine run_bind_eq_ok.2 ⟨answer, h₁, create, ?_⟩
    cases answer <;> cases run <;> rfl

theorem windowEvent_withLog (log : List FrameContext) (event : WindowEvent)
    (run : (l.windowEvent app e event).run h = .ok (l', h')) :
    ∃ frames, ((l.withLog log).windowEvent app.logging e event).run h =
      .ok (l'.withLog (log ++ frames), h') := by
  cases event
  case redrawRequested =>
    obtain ⟨⟨control, s, e'⟩, h₂, redraw, run⟩ := run_bind_eq_ok.1 run
    obtain ⟨ctx, logging⟩ := Entry.redraw_logging log redraw
    refine ⟨[ctx], run_bind_eq_ok.2 ⟨_, h₂, logging, ?_⟩⟩
    cases control <;> cases run <;> rfl
  case resized size =>
    obtain ⟨e', h₁, resized, run⟩ := run_bind_eq_ok.1 run
    refine ⟨[], run_bind_eq_ok.2 ⟨e', h₁, resized, ?_⟩⟩
    cases run
    rw [List.append_nil]
    rfl
  case scaleFactorChanged scale size =>
    obtain ⟨host, h₁, read, run⟩ := run_bind_eq_ok.1 run
    obtain ⟨e', h₂, resized, run⟩ := run_bind_eq_ok.1 run
    refine ⟨[], run_bind_eq_ok.2 ⟨host, h₁, read, run_bind_eq_ok.2 ⟨e', h₂, resized, ?_⟩⟩⟩
    cases run
    rw [List.append_nil]
    rfl
  all_goals
    cases run
    refine ⟨[], ?_⟩
    rw [List.append_nil]
    rfl

theorem step_withLog (log : List FrameContext) {c : Callback}
    (run : (l.step window options app c).run h = .ok (l', h')) :
    ∃ frames, ((l.withLog log).step window options app.logging c).run h =
      .ok (l'.withLog (log ++ frames), h') := by
  obtain ⟨_, h₁, note, run⟩ := run_bind_eq_ok.1 run
  cases c with
  | resumed =>
    refine ⟨[], run_bind_eq_ok.2 ⟨_, h₁, note, ?_⟩⟩
    rw [List.append_nil]
    exact resume_withLog log run
  | aboutToWait =>
    refine ⟨[], run_bind_eq_ok.2 ⟨_, h₁, note, ?_⟩⟩
    rw [List.append_nil]
    obtain ⟨entry, failure, app⟩ := l
    cases entry <;> cases run <;> rfl
  | window event =>
    cases entry : l.entry with
    | none =>
      simp only [entry] at run
      cases run
      refine ⟨[], run_bind_eq_ok.2 ⟨_, h', note, ?_⟩⟩
      simp only [withLog, entry, List.append_nil]
      rfl
    | some e =>
      simp only [entry] at run
      obtain ⟨frames, logging⟩ := windowEvent_withLog log event run
      refine ⟨frames, run_bind_eq_ok.2 ⟨_, h₁, note, ?_⟩⟩
      simp only [withLog, entry]
      simp only [withLog, entry] at logging
      exact logging

end Loop

/-- Keeping the frames does not change what an application goes through. -/
theorem Life.logging {cs : List Callback} {start : Loop σ}
    (life : Life window options app start cs l) (log : List FrameContext) :
    ∃ frames,
    Life window options app.logging (start.withLog log) cs (l.withLog (log ++ frames)) := by
  induction life with
  | opened closed run isOpen =>
    obtain ⟨frames, run⟩ := Loop.step_withLog log run
    exact ⟨frames, .opened closed run isOpen⟩
  | next _ isOpen run ih =>
    obtain ⟨frames, life⟩ := ih
    obtain ⟨more, run⟩ := Loop.step_withLog _ run
    exact ⟨frames ++ more, List.append_assoc _ _ _ ▸ .next life isOpen run⟩

/-- The loop after callbacks that find a window open, unless the application crashes. -/
def Loop.follow (window : WindowOptions) (options : Options) (app : App σ) (l : Loop σ) (h : Host) :
    List Callback → Option (Loop σ)
  | [] => some l
  | c :: cs =>
      if l.entry.isSome then
        match (l.step window options app c).run h with
        | .ok (l, h) => l.follow window options app h cs
        | .error _ => none
      else none

theorem Life.follow {start : Loop σ} {cs : List Callback} (ds : List Callback)
    (life : Life window options app start cs l) (h : Host)
    (run : l.follow window options app h ds = some l') :
    Life window options app start (cs ++ ds) l' := by
  induction ds generalizing cs l h with
  | nil =>
    cases run
    rwa [List.append_nil]
  | cons c ds ih =>
    unfold Loop.follow at run
    split at run
    next isOpen =>
      split at run
      next l₁ h₁ step =>
        rw [List.append_cons]
        exact ih (life.next isOpen step) h₁ run
      next => cases run
    next => cases run

/-- The loop after a window has opened and the callbacks have found it open. -/
def Loop.live (window : WindowOptions) (options : Options) (app : App σ) (start : Loop σ) (h : Host)
    (cs : List Callback) : Option (Loop σ) :=
  if start.entry.isNone then
    match (start.step window options app .resumed).run h with
    | .ok (l, h) => if l.entry.isSome then l.follow window options app h cs else none
    | .error _ => none
  else none

theorem Life.of_live {start : Loop σ} {cs : List Callback}
    (run : start.live window options app h cs = some l) : Life window options app start cs l := by
  unfold Loop.live at run
  split at run
  next closed =>
    split at run
    next l₁ h₁ step =>
      split at run
      next isOpen =>
        exact follow cs (.opened (Option.isNone_iff_eq_none.1 closed) step isOpen) h₁ run
      next => cases run
    next => cases run
  next => cases run

/-! ## What frames receive -/

variable {start final : Loop (σ × List FrameContext)}

theorem Life.delivery {cs : List Callback} (life : Life window options app.logging start cs final) :
    ∃ frames earlier current, final.app.2 = start.app.2 ++ frames ∧
      Delivery cs frames final.entry earlier current := by
  induction life with
  | opened closed run _ =>
    obtain ⟨same, fresh⟩ := Loop.step_resumed closed run
    exact ⟨[], [], [], by rw [same, List.append_nil], .opened _ fresh⟩
  | @next cs c l l' h h' _ isOpen run ih =>
    obtain ⟨frames, earlier, current, log, delivery⟩ := ih
    obtain ⟨e, he⟩ := Option.isSome_iff_exists.1 isOpen
    rw [he] at delivery
    by_cases redraw : c.isRedraw
    · cases Callback.eq_of_isRedraw redraw
      obtain ⟨measured, time, clock, control, h₁, h₂, advance, call, anew⟩ :=
        Loop.step_redraw he run
      refine ⟨_, _, _, ?_, delivery.frame advance anew⟩
      rw [App.logging_onFrame call, log, List.append_assoc]
    · obtain ⟨same, adds⟩ := Loop.step_of_not_redraw he (eq_false_of_ne_true redraw) run
      exact ⟨frames, _, _, by rw [same, log], delivery.push (eq_false_of_ne_true redraw) adds⟩

/-- During the life of a window the application is given one frame for each callback that calls for
one. The `k`-th frame tells what is held down after all events since the window opened, what has
changed in the events since the frame before, and the number `k`. -/
theorem frames_receive_input_once {cs : List Callback}
    (life : Life window options app.logging start cs final) :
    ∃ frames : List FrameContext, final.app.2 = start.app.2 ++ frames ∧
      frames.length = cs.countP Callback.isRedraw ∧
      ∀ (k : Nat) (ctx : FrameContext), frames[k]? = some ctx → ctx.Answers cs k := by
  obtain ⟨frames, earlier, current, log, delivery⟩ := life.delivery
  refine ⟨frames, log, ?_, delivery.answers⟩
  rw [delivery.length, delivery.split, delivery.round.countP_append]

/-- A click during which the window loses its area, with a frame before and after. -/
def Callback.interruptedClick : List Callback :=
  [.window (.mouseInput .left .press), .window .redrawRequested, .window (.resized ⟨0, 3⟩),
    .window (.mouseInput .left .release), .window .redrawRequested]

/-- An application that closes the window in its second frame. -/
theorem frames_receive_input_once_interrupted :
    ∃ final : Loop (Playback × List FrameContext),
      Life .standard .standard Playback.app.logging
        ((Loop.initial (Playback.ofCues [⟨none, false⟩, ⟨none, true⟩] .white)).withLog [])
        Callback.interruptedClick final ∧
      ∃ frames : List FrameContext, final.app.2 = [] ++ frames ∧ frames.length = 2 ∧
        ∀ (k : Nat) (ctx : FrameContext), frames[k]? = some ctx →
          ctx.Answers Callback.interruptedClick k := by
  obtain ⟨final, run⟩ := Option.isSome_iff_exists.1 (show ((Loop.initial
    (Playback.ofCues [⟨none, false⟩, ⟨none, true⟩] .white)).live .standard .standard Playback.app
    (.initial .standard ⟨4, 3⟩ [] []) Callback.interruptedClick).isSome by decide +kernel)
  obtain ⟨frames, life⟩ := (Life.of_live run).logging []
  exact ⟨final.withLog ([] ++ frames), life, frames_receive_input_once life⟩

end GroundPlane
