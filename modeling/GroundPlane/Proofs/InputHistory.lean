import Mathlib
import GroundPlane.Input.State
import GroundPlane.Scalar.Single

/-!
# Held switches and their history

Keys and buttons are switches. Which of them are down, and which went down or up in the current
frame, is kept event by event. Here it is read off the whole history instead: a switch is down if
the last thing that happened to it was a press, and it counts as pressed if a press arrived in this
frame while it was up (`history_determines_switches`). What a frame does not tell are the buttons
that a loss of focus lets go (`button_changes_recorded_unless_focus_lost`).
-/

namespace GroundPlane

/-- Something that can be held down. -/
inductive Switch
  | key (k : Key)
  | button (b : MouseButton)
deriving DecidableEq

/-- What an input goes through: an event, or the start of the next frame. -/
inductive Moment (α : Type)
  | event (e : InputEvent α)
  | nextFrame

variable {α : Type}

namespace InputEvent

/-- The switch that an event is of. -/
def switch? : InputEvent α → Option Switch
  | .key k _ _ => some (.key k)
  | .button b _ => some (.button b)
  | _ => none

/-- What an event does to a switch. It moves its own switch, and a loss of focus lets go of all. -/
def moves? (s : Switch) : InputEvent α → Option Action
  | .focus false => some .release
  | .key k action _ => if s = .key k then some action else none
  | .button b action => if s = .button b then some action else none
  | _ => none

/-- The switch that an event presses, unless it only repeats. -/
def presses? : InputEvent α → Option Switch
  | .key k .press false => some (.key k)
  | .button b .press => some (.button b)
  | _ => none

/-- The switch that an event releases, if it is a button. Frames do not tell which keys went up. -/
def releases? : InputEvent α → Option Switch
  | .button b .release => some (.button b)
  | _ => none

theorem presses?_eq_key {e : InputEvent α} {k : Key} :
    e.presses? = some (.key k) ↔ e = .key k .press false := by
  unfold presses?
  split <;> simp_all

theorem presses?_eq_button {e : InputEvent α} {b : MouseButton} :
    e.presses? = some (.button b) ↔ e = .button b .press := by
  unfold presses?
  split <;> simp_all

theorem releases?_eq_button {e : InputEvent α} {b : MouseButton} :
    e.releases? = some (.button b) ↔ e = .button b .release := by
  unfold releases?
  split <;> simp_all

theorem switch?_of_presses? {e : InputEvent α} {s : Switch} (presses : e.presses? = some s) :
    e.switch? = some s := by
  cases s with
  | key k => rw [presses?_eq_key.1 presses, switch?]
  | button b => rw [presses?_eq_button.1 presses, switch?]

theorem switch?_of_releases? {e : InputEvent α} {s : Switch} (releases : e.releases? = some s) :
    e.switch? = some s := by
  unfold releases? at releases
  split at releases
  · exact releases
  · cases releases

theorem moves?_of_ne {e : InputEvent α} {s t : Switch} (own : e.switch? = some t) (other : t ≠ s) :
    e.moves? s = none := by
  unfold switch? at own
  split at own
  · cases own
    exact if_neg other.symm
  · cases own
    exact if_neg other.symm
  · cases own

theorem moves?_of_presses? {e : InputEvent α} {s : Switch} (presses : e.presses? = some s) :
    e.moves? s = some .press := by
  cases s with
  | key k => simp [presses?_eq_key.1 presses, moves?]
  | button b => simp [presses?_eq_button.1 presses, moves?]

theorem moves?_eq_press {e : InputEvent α} {b : MouseButton} :
    e.moves? (.button b) = some .press ↔ e.presses? = some (.button b) := by
  rw [presses?_eq_button]
  unfold moves?
  split <;> grind

theorem moves?_eq_release {e : InputEvent α} {b : MouseButton} :
    e.moves? (.button b) = some .release ↔ e.releases? = some (.button b) ∨ e = .focus false := by
  rw [releases?_eq_button]
  unfold moves?
  split <;> grind

end InputEvent

namespace Moment

/-- What a moment does to a switch. -/
def moves? (s : Switch) : Moment α → Option Action
  | event e => e.moves? s
  | nextFrame => none

/-- The moment lets go of a switch: it is a release of it, or a loss of focus. -/
def LetsGo (m : Moment α) (s : Switch) : Prop :=
  m.moves? s = some .release

/-- The moment is no event of another switch. -/
def concerns (s : Switch) : Moment α → Bool
  | event e => ∀ t ∈ e.switch?, t = s
  | nextFrame => true

end Moment

namespace Switch

/-- The switch is down. -/
def IsDown (s : Switch) (i : InputState α) : Prop :=
  match s with
  | key k => k ∈ i.keys
  | button b => b ∈ i.buttons

/-- The switch went down in the current frame. -/
def IsPressed (s : Switch) (d : InputDelta α) : Prop :=
  match s with
  | key k => k ∈ d.keysPressed
  | button b => b ∈ d.buttonsPressed

/-- The switch is a button and went up in the current frame. -/
def IsReleased (s : Switch) (d : InputDelta α) : Prop :=
  match s with
  | key _ => False
  | button b => b ∈ d.buttonsReleased

/-- The last thing that happened to the switch, of its own presses and releases and the losses of
focus, was a press. -/
def HeldAfter (s : Switch) (history : List (Moment α)) : Prop :=
  (history.filterMap (Moment.moves? s)).getLast? = some .press

instance (s : Switch) (history : List (Moment α)) : Decidable (s.HeldAfter history) :=
  inferInstanceAs (Decidable (_ = _))

theorem isDown_initial (s : Switch) : ¬ s.IsDown (.initial : InputState α) := by
  cases s <;> exact List.not_mem_nil

end Switch

/-- Since the last frame an event arrived that has a property, given the history before it. -/
def SinceFrame (p : List (Moment α) → InputEvent α → Prop) (history : List (Moment α)) : Prop :=
  ∃ (earlier : List (Moment α)) (e : InputEvent α) (later : List (Moment α)),
    history = earlier ++ .event e :: later ∧ .nextFrame ∉ later ∧ p earlier e

theorem sinceFrame_cons {p : List (Moment α) → InputEvent α → Prop} {m : Moment α}
    {history : List (Moment α)} :
    SinceFrame p (m :: history) ↔
      (∃ e, m = .event e ∧ .nextFrame ∉ history ∧ p [] e) ∨
      SinceFrame (fun earlier => p (m :: earlier)) history := by
  constructor
  · rintro ⟨earlier, e, later, split, quiet, holds⟩
    cases earlier with
    | nil =>
      cases split
      exact .inl ⟨e, rfl, quiet, holds⟩
    | cons _ earlier =>
      cases split
      exact .inr ⟨earlier, e, later, rfl, quiet, holds⟩
  · rintro (⟨e, rfl, quiet, holds⟩ | ⟨earlier, e, later, rfl, quiet, holds⟩)
    · exact ⟨[], e, history, rfl, quiet, holds⟩
    · exact ⟨m :: earlier, e, later, rfl, quiet, holds⟩

/-! ## What an event does to a switch -/

section Events

variable [Add α] [Sub α]

/-- An event of a switch changes what is told of switches alone. -/
theorem Input.apply_of_switch (i : Input α) {e : InputEvent α} {s : Switch}
    (own : e.switch? = some s) :
    ∃ keys buttons keysPressed buttonsPressed buttonsReleased, i.apply e =
      { state := { i.state with keys, buttons }
        delta := { i.delta with keysPressed, buttonsPressed, buttonsReleased } } := by
  cases e with
  | button b action =>
    cases action <;> simp only [apply, pressButton, releaseButton] <;> split <;>
      exact ⟨_, _, _, _, _, rfl⟩
  | key k action isRepeat =>
    cases action with
    | press =>
      simp only [apply, pressKey]
      split
      · exact ⟨_, _, _, _, _, rfl⟩
      · cases isRepeat <;> exact ⟨_, _, _, _, _, rfl⟩
    | release => exact ⟨_, _, _, _, _, rfl⟩
  | _ => cases own

/-- An event of no switch leaves what a frame tells of switches. -/
theorem Input.delta_apply_of_no_switch (i : Input α) {e : InputEvent α} (none : e.switch? = none) :
    ∃ motion wheel, (i.apply e).delta = { i.delta with motion, wheel } := by
  cases e with
  | focus gained => exact ⟨_, _, rfl⟩
  | pointerMove x y =>
    simp only [apply, pointerMove]
    split
    · exact ⟨_, _, rfl⟩
    · exact ⟨_, _, rfl⟩
  | pointerLeave => exact ⟨_, _, rfl⟩
  | wheel lines => exact ⟨_, _, rfl⟩
  | button b action => cases none
  | key k action isRepeat => cases none

namespace Switch

theorem isDown_apply (s : Switch) (i : Input α) (e : InputEvent α) :
    s.IsDown (i.apply e).state ↔ (e.moves? s).elim (s.IsDown i.state) (· = .press) := by
  cases e with
  | focus gained =>
    cases gained <;> cases s <;> simp [Input.apply, Input.focus, InputEvent.moves?, IsDown]
  | pointerMove x y => rfl
  | pointerLeave => rfl
  | wheel lines => rfl
  | button b action =>
    cases action <;> cases s <;>
      simp only [Input.apply, Input.pressButton, Input.releaseButton, InputEvent.moves?, IsDown] <;>
        grind
  | key k action isRepeat =>
    cases action <;> cases s <;>
      simp only [Input.apply, Input.pressKey, Input.releaseKey, InputEvent.moves?, IsDown] <;> grind

/-- What goes down is pressed. -/
theorem moves?_of_down {s : Switch} {i : Input α} {e : InputEvent α} (up : ¬ s.IsDown i.state)
    (down : s.IsDown (i.apply e).state) : e.moves? s = some .press := by
  rw [isDown_apply] at down
  cases moved : e.moves? s <;> simp_all

/-- What goes up is let go. -/
theorem moves?_of_up {s : Switch} {i : Input α} {e : InputEvent α} (down : s.IsDown i.state)
    (up : ¬ s.IsDown (i.apply e).state) : e.moves? s = some .release := by
  rw [isDown_apply] at up
  match moved : e.moves? s with
  | none => simp_all
  | some .press => simp_all
  | some .release => rfl

theorem edges_apply_of_no_switch (s : Switch) (i : Input α) {e : InputEvent α}
    (none : e.switch? = none) :
    (s.IsPressed (i.apply e).delta ↔ s.IsPressed i.delta) ∧
      (s.IsReleased (i.apply e).delta ↔ s.IsReleased i.delta) := by
  obtain ⟨motion, wheel, delta⟩ := i.delta_apply_of_no_switch none
  rw [delta]
  cases s <;> exact ⟨Iff.rfl, Iff.rfl⟩

theorem isPressed_apply (s : Switch) (i : Input α) (e : InputEvent α) :
    s.IsPressed (i.apply e).delta ↔ s.IsPressed i.delta ∨ e.presses? = some s ∧
    ¬ s.IsDown i.state := by
  cases e with
  | button b action =>
    cases action <;> cases s <;>
      simp only [Input.apply, Input.pressButton, Input.releaseButton, InputEvent.presses?, IsDown,
        IsPressed] <;> grind
  | key k action isRepeat =>
    cases action <;> cases s <;> cases isRepeat <;>
      simp only [Input.apply, Input.pressKey, Input.releaseKey, InputEvent.presses?, IsDown,
        IsPressed] <;> grind
  | _ =>
    simp only [InputEvent.presses?, reduceCtorEq, false_and, or_false]
    exact (edges_apply_of_no_switch s i rfl).1

theorem isReleased_apply (s : Switch) (i : Input α) (e : InputEvent α) :
    s.IsReleased (i.apply e).delta ↔ s.IsReleased i.delta ∨ e.releases? = some s ∧
    s.IsDown i.state := by
  cases e with
  | button b action =>
    cases action <;> cases s <;>
      simp only [Input.apply, Input.pressButton, Input.releaseButton, InputEvent.releases?, IsDown,
        IsReleased] <;>
      grind
  | key k action isRepeat =>
    cases action <;> cases s <;>
      simp only [Input.apply, Input.pressKey, Input.releaseKey, InputEvent.releases?,
        IsReleased] <;> grind
  | _ =>
    simp only [InputEvent.releases?, reduceCtorEq, false_and, or_false]
    exact (edges_apply_of_no_switch s i rfl).2

end Switch

/-- Two inputs tell the same of a switch. -/
structure Switch.SeesAlike (s : Switch) (i j : Input α) : Prop where
  isDown : s.IsDown i.state ↔ s.IsDown j.state
  isPressed : s.IsPressed i.delta ↔ s.IsPressed j.delta
  isReleased : s.IsReleased i.delta ↔ s.IsReleased j.delta

theorem Switch.SeesAlike.apply {s : Switch} {i j : Input α} (alike : s.SeesAlike i j)
    (e : InputEvent α) : s.SeesAlike (i.apply e) (j.apply e) where
  isDown := by rw [isDown_apply, isDown_apply, alike.isDown]
  isPressed := by rw [isPressed_apply, isPressed_apply, alike.isDown, alike.isPressed]
  isReleased := by rw [isReleased_apply, isReleased_apply, alike.isDown, alike.isReleased]

/-- What changes within a frame does so at some event. -/
theorem Input.exists_change (p : InputState α → Prop) (i : Input α) (events : List (InputEvent α))
    (first : ¬ p i.state) (last : p (events.foldl apply i).state) :
    ∃ (before : List (InputEvent α)) (e : InputEvent α) (later : List (InputEvent α)),
    events = before ++ e :: later ∧
      ¬ p (before.foldl apply i).state ∧ p ((before.foldl apply i).apply e).state := by
  induction events generalizing i with
  | nil => exact absurd last first
  | cons e events ih =>
    by_cases now : p (i.apply e).state
    · exact ⟨[], e, events, rfl, first, now⟩
    · obtain ⟨before, e', later, rfl, change⟩ := ih (i.apply e) now last
      exact ⟨e :: before, e', later, rfl, change⟩

namespace Switch

variable {s : Switch} {i : Input α} {events : List (InputEvent α)}

theorem IsDown.foldl_apply (down : s.IsDown i.state)
    (kept : ∀ e ∈ events, e.moves? s ≠ some .release) :
    s.IsDown (events.foldl Input.apply i).state := by
  by_contra up
  obtain ⟨before, e, later, rfl, wasDown, isUp⟩ :=
    i.exists_change (¬ s.IsDown ·) events (not_not.2 down) up
  exact kept e (by simp) (moves?_of_up (not_not.1 wasDown) isUp)

theorem not_isDown_foldl_apply (up : ¬ s.IsDown i.state)
    (kept : ∀ e ∈ events, e.moves? s ≠ some .press) :
    ¬ s.IsDown (events.foldl Input.apply i).state := by
  intro down
  obtain ⟨before, e, later, rfl, wasUp, isDown⟩ := i.exists_change s.IsDown events up down
  exact kept e (by simp) (moves?_of_down wasUp isDown)

end Switch

end Events

/-! ## Histories -/

variable [Zero α] [Add α] [Sub α]

namespace Input

/-- The input after a moment. -/
def pass (i : Input α) : Moment α → Input α
  | .event e => i.apply e
  | .nextFrame => i.nextFrame

/-- The input after a history. -/
def through (i : Input α) (history : List (Moment α)) : Input α :=
  history.foldl pass i

theorem through_append (i : Input α) (h h' : List (Moment α)) :
    i.through (h ++ h') = (i.through h).through h' :=
  List.foldl_append

theorem through_events (i : Input α) (events : List (InputEvent α)) :
    i.through (events.map .event) = events.foldl apply i :=
  List.foldl_map

end Input

namespace Switch

theorem isDown_pass (s : Switch) (i : Input α) (m : Moment α) :
    s.IsDown (i.pass m).state ↔ (m.moves? s).elim (s.IsDown i.state) (· = .press) := by
  cases m with
  | event e => exact s.isDown_apply i e
  | nextFrame => rfl

theorem isDown_through (s : Switch) (i : Input α) (history : List (Moment α)) :
    s.IsDown (i.through history).state ↔
      (history.filterMap (Moment.moves? s)).getLast?.elim (s.IsDown i.state) (· = .press) := by
  induction history generalizing i with
  | nil => rfl
  | cons m history ih =>
    refine (ih (i.pass m)).trans ?_
    rw [isDown_pass]
    cases moved : m.moves? s with
    | none => rw [List.filterMap_cons_none moved, Option.elim_none]
    | some action =>
      rw [List.filterMap_cons_some moved, List.getLast?_cons]
      cases (history.filterMap (Moment.moves? s)).getLast? <;> rfl

/-- What is down after a history from the start is what the history holds. -/
theorem isDown_iff_heldAfter (s : Switch) (history : List (Moment α)) :
    s.IsDown (Input.initial.through history).state ↔ s.HeldAfter history := by
  have up : ¬ s.IsDown (Input.initial : Input α).state := s.isDown_initial
  rw [isDown_through, HeldAfter]
  cases (history.filterMap (Moment.moves? s)).getLast? with
  | none => simp [up]
  | some action => simp

end Switch

/-- A frame notes what some events cause: it starts with nothing, and each event adds what it
causes. -/
structure IsNoted (noted : InputDelta α → Prop) (causes : InputState α → InputEvent α → Prop) :
    Prop where
  empty : ¬ noted .empty
  apply : ∀ (i : Input α) (e : InputEvent α),
    noted (i.apply e).delta ↔ noted i.delta ∨ causes i.state e

namespace IsNoted

variable {noted : InputDelta α → Prop} {causes : InputState α → InputEvent α → Prop}

/-- A note is older than the history, or an event since the last frame has caused it. -/
theorem through (notes : IsNoted noted causes) (i : Input α) (history : List (Moment α)) :
    noted (i.through history).delta ↔ noted i.delta ∧ .nextFrame ∉ history ∨
      SinceFrame (fun earlier e => causes (i.through earlier).state e) history := by
  induction history generalizing i with
  | nil => simp [Input.through, SinceFrame]
  | cons m history ih =>
    refine (ih (i.pass m)).trans ?_
    rw [sinceFrame_cons, ← or_assoc]
    refine or_congr ?_ Iff.rfl
    cases m with
    | event e =>
      have step : noted (i.pass (.event e)).delta ↔ noted i.delta ∨ causes i.state e :=
        notes.apply i e
      rw [step, or_and_right]
      simp [Input.through, and_comm]
    | nextFrame =>
      have anew : ¬ noted (i.pass .nextFrame).delta := notes.empty
      simp [anew]

/-- Within a frame, some event has caused the note. -/
theorem foldl_apply (notes : IsNoted noted causes) (state : InputState α)
    (events : List (InputEvent α)) :
    noted (events.foldl Input.apply ⟨state, .empty⟩).delta ↔
      ∃ (before : List (InputEvent α)) (e : InputEvent α) (later : List (InputEvent α)),
        events = before ++ e :: later ∧
        causes (before.foldl Input.apply ⟨state, .empty⟩).state e := by
  rw [← Input.through_events, notes.through]
  simp only [notes.empty, false_and, false_or]
  constructor
  · rintro ⟨earlier, e, later, split, -, caused⟩
    obtain ⟨before, rest, rfl, rfl, rest_eq⟩ := List.map_eq_append_iff.1 split
    obtain ⟨_, later, rfl, ⟨⟩, rfl⟩ := List.map_eq_cons_iff.1 rest_eq
    rw [Input.through_events] at caused
    exact ⟨before, e, later, rfl, caused⟩
  · rintro ⟨before, e, later, rfl, caused⟩
    rw [← Input.through_events] at caused
    exact ⟨before.map .event, e, later.map .event, by simp, by simp, caused⟩

end IsNoted

namespace Switch

theorem isNoted_isPressed (s : Switch) :
    IsNoted (α := α) s.IsPressed fun state e => e.presses? = some s ∧ ¬ s.IsDown state where
  empty := by cases s <;> exact List.not_mem_nil
  apply := s.isPressed_apply

theorem isNoted_isReleased (s : Switch) :
    IsNoted (α := α) s.IsReleased fun state e => e.releases? = some s ∧ s.IsDown state where
  empty := by
    cases s with
    | key k => exact id
    | button b => exact List.not_mem_nil
  apply := s.isReleased_apply

namespace SeesAlike

variable {s : Switch} {i j : Input α}

theorem pass (alike : s.SeesAlike i j) (m : Moment α) : s.SeesAlike (i.pass m) (j.pass m) := by
  cases m with
  | event e => exact alike.apply e
  | nextFrame => exact ⟨alike.isDown, Iff.rfl, Iff.rfl⟩

/-- An event of another switch is not seen. -/
theorem pass_of_not_concerns (alike : s.SeesAlike i j) {m : Moment α}
    (other : m.concerns s = false) : s.SeesAlike (i.pass m) j := by
  cases m with
  | event e =>
    obtain ⟨t, own, ne⟩ : ∃ t, e.switch? = some t ∧ t ≠ s := by
      simpa [Moment.concerns] using other
    have moves : e.moves? s = none := InputEvent.moves?_of_ne own ne
    have presses : e.presses? ≠ some s := fun h => by simp_all [InputEvent.switch?_of_presses? h]
    have releases : e.releases? ≠ some s := fun h => by simp_all [InputEvent.switch?_of_releases? h]
    refine ⟨?_, ?_, ?_⟩
    · simp only [Input.pass, isDown_apply, moves, Option.elim_none, alike.isDown]
    · simp only [Input.pass, isPressed_apply, presses, false_and, or_false, alike.isPressed]
    · simp only [Input.pass, isReleased_apply, releases, false_and, or_false, alike.isReleased]
  | nextFrame => cases other

/-- Leaving out the events of other switches changes nothing for a switch. -/
theorem through_filter (alike : s.SeesAlike i j) (history : List (Moment α)) :
    s.SeesAlike (i.through history) (j.through (history.filter (Moment.concerns s))) := by
  induction history generalizing i j with
  | nil => exact alike
  | cons m history ih =>
    by_cases concerns : m.concerns s
    · rw [List.filter_cons_of_pos concerns]
      exact ih (alike.pass m)
    · rw [List.filter_cons_of_neg concerns]
      exact ih (alike.pass_of_not_concerns (eq_false_of_ne_true concerns))

end SeesAlike

theorem isPressed_iff_sinceFrame (s : Switch) (history : List (Moment α)) :
    s.IsPressed (Input.initial.through history).delta ↔
      SinceFrame (fun earlier e => e.presses? = some s ∧ ¬ s.HeldAfter earlier) history := by
  have none : ¬ s.IsPressed (Input.initial : Input α).delta := s.isNoted_isPressed.empty
  rw [s.isNoted_isPressed.through]
  simp only [none, false_and, false_or, isDown_iff_heldAfter]

theorem isReleased_iff_sinceFrame (s : Switch) (history : List (Moment α)) :
    s.IsReleased (Input.initial.through history).delta ↔
      SinceFrame (fun earlier e => e.releases? = some s ∧ s.HeldAfter earlier) history := by
  have none : ¬ s.IsReleased (Input.initial : Input α).delta := s.isNoted_isReleased.empty
  rw [s.isNoted_isReleased.through]
  simp only [none, false_and, false_or, isDown_iff_heldAfter]

end Switch

/-- An event is recorded as a press of a switch: a frame that it alone makes up tells of it. -/
def Input.RecordsPress (i : Input α) (s : Switch) (e : InputEvent α) : Prop :=
  s.IsPressed (i.nextFrame.apply e).delta

theorem Input.recordsPress_iff {i : Input α} {s : Switch} {e : InputEvent α} :
    i.RecordsPress s e ↔ e.presses? = some s ∧ ¬ s.IsDown i.state := by
  have none : ¬ s.IsPressed i.nextFrame.delta := s.isNoted_isPressed.empty
  rw [RecordsPress, s.isPressed_apply]
  simp only [none, false_or]
  rfl

/-- Between two presses that are recorded, something lets go of the switch. -/
theorem Input.RecordsPress.exists_letsGo {i : Input α} {s : Switch} {e e' : InputEvent α}
    {between : List (Moment α)} (first : i.RecordsPress s e)
    (second : ((i.apply e).through between).RecordsPress s e') : ∃ m ∈ between, m.LetsGo s := by
  have down : s.IsDown (i.apply e).state := by
    rw [s.isDown_apply, InputEvent.moves?_of_presses? (recordsPress_iff.1 first).1]
    rfl
  have up := (recordsPress_iff.1 second).2
  rw [s.isDown_through] at up
  -- the switch is up again, so the last thing that happened to it cannot have been a press
  match last : (between.filterMap (Moment.moves? s)).getLast? with
  | none =>
    rw [last] at up
    exact absurd down up
  | some .press =>
    rw [last] at up
    exact absurd rfl up
  | some .release => exact List.mem_filterMap.1 (List.mem_of_getLast? last)

/-- The history of events determines what is down, and what went down or up in the current frame. A
switch is down just if the last of its presses, its releases and the losses of focus was a press. It
went down in this frame if a press of it, no repetition, arrived while it was up, and a button went
up if a release arrived while it was down. Events of other switches do not matter, and between two
presses that are recorded something lets go of the switch. -/
theorem history_determines_switches (history : List (Moment α)) :
    let i : Input α := Input.initial.through history
    (∀ k : Key,
      (k ∈ i.state.keys ↔ Switch.HeldAfter (.key k) history) ∧
      (k ∈ i.delta.keysPressed ↔
        SinceFrame (fun earlier e => e = .key k .press false ∧
          ¬ Switch.HeldAfter (.key k) earlier) history)) ∧
    (∀ b : MouseButton,
      (b ∈ i.state.buttons ↔ Switch.HeldAfter (.button b) history) ∧
      (b ∈ i.delta.buttonsPressed ↔
        SinceFrame (fun earlier e => e = .button b .press ∧
          ¬ Switch.HeldAfter (.button b) earlier) history) ∧
      (b ∈ i.delta.buttonsReleased ↔
        SinceFrame (fun earlier e => e = .button b .release ∧
          Switch.HeldAfter (.button b) earlier) history)) ∧
    ∀ s : Switch,
      s.SeesAlike i (Input.initial.through (history.filter (Moment.concerns s))) ∧
      ∀ (earlier between later : List (Moment α)) (e e' : InputEvent α),
        history = earlier ++ .event e :: (between ++ .event e' :: later) →
        (Input.initial.through earlier).RecordsPress s e →
        (Input.initial.through (earlier ++ .event e :: between)).RecordsPress s e' →
        ∃ m ∈ between, m.LetsGo s := by
  intro i
  refine ⟨fun k => ⟨Switch.isDown_iff_heldAfter (.key k) history, ?_⟩,
    fun b => ⟨Switch.isDown_iff_heldAfter (.button b) history, ?_, ?_⟩, fun s => ⟨?_, ?_⟩⟩
  · have pressed := Switch.isPressed_iff_sinceFrame (.key k) history
    simp only [InputEvent.presses?_eq_key] at pressed
    exact pressed
  · have pressed := Switch.isPressed_iff_sinceFrame (.button b) history
    simp only [InputEvent.presses?_eq_button] at pressed
    exact pressed
  · have released := Switch.isReleased_iff_sinceFrame (.button b) history
    simp only [InputEvent.releases?_eq_button] at released
    exact released
  · exact Switch.SeesAlike.through_filter ⟨Iff.rfl, Iff.rfl, Iff.rfl⟩ history
  · intro earlier between later e e' _ first second
    rw [Input.through_append] at second
    exact first.exists_letsGo second

/-- A key is held over a frame, during which it repeats, and released. -/
def Moment.heldOver : List (Moment Float32) :=
  [.nextFrame, .event (.key .n .press true), .event (.key .n .release false)]

theorem history_determines_switches_pressed_twice :
    let press : InputEvent Float32 := .key .n .press false
    Input.initial.RecordsPress (.key .n) press ∧
      (Input.initial.through (.event press :: Moment.heldOver)).RecordsPress (.key .n) press ∧
      ∃ m ∈ Moment.heldOver, m.LetsGo (.key .n) := by
  intro press
  have first : Input.initial.RecordsPress (.key .n) press := by
    change Key.n ∈ _
    decide
  have second :
      (Input.initial.through (.event press :: Moment.heldOver)).RecordsPress (.key .n) press := by
    change Key.n ∈ _
    decide
  refine ⟨first, second, ?_⟩
  exact ((history_determines_switches (.event press :: (Moment.heldOver ++ [.event press]))).2.2
    (.key .n)).2 [] Moment.heldOver [] press press rfl first second

/-! ## Changes of buttons within a frame -/

/-- A frame tells of every button that is up at its start and down at its end. Of a button that is
down at its start and up at its end it tells, or a loss of focus has let it go: it tells of just
those that are released while they are down. -/
theorem button_changes_recorded_unless_focus_lost (state : InputState α)
    (events : List (InputEvent α)) (b : MouseButton) :
    let after (events : List (InputEvent α)) : Input α := events.foldl Input.apply ⟨state, .empty⟩
    (b ∉ state.buttons → b ∈ (after events).state.buttons →
      b ∈ (after events).delta.buttonsPressed) ∧
    (b ∈ state.buttons → b ∉ (after events).state.buttons →
      b ∈ (after events).delta.buttonsReleased ∨
      ∃ before later : List (InputEvent α), events = before ++ .focus false :: later ∧
        b ∈ (after before).state.buttons) ∧
    (b ∈ (after events).delta.buttonsReleased ↔
      ∃ before later : List (InputEvent α), events = before ++ .button b .release :: later ∧
        b ∈ (after before).state.buttons) := by
  intro after
  have released : b ∈ (after events).delta.buttonsReleased ↔
      ∃ before later : List (InputEvent α), events = before ++ .button b .release :: later ∧
        b ∈ (after before).state.buttons := by
    refine ((Switch.isNoted_isReleased (.button b)).foldl_apply state events).trans ⟨?_, ?_⟩
    · rintro ⟨before, e, later, split, releases, down⟩
      cases InputEvent.releases?_eq_button.1 releases
      exact ⟨before, later, split, down⟩
    · rintro ⟨before, later, split, down⟩
      exact ⟨before, .button b .release, later, split, rfl, down⟩
  refine ⟨fun up down => ?_, fun down up => ?_, released⟩
  · obtain ⟨before, e, later, split, wasUp, isDown⟩ :=
      Input.exists_change (Switch.IsDown (.button b)) ⟨state, .empty⟩ events up down
    refine ((Switch.isNoted_isPressed (.button b)).foldl_apply state events).2
      ⟨before, e, later, split, ?_, wasUp⟩
    exact InputEvent.moves?_eq_press.1 (Switch.moves?_of_down wasUp isDown)
  · obtain ⟨before, e, later, split, wasDown, isUp⟩ :=
      Input.exists_change (¬ Switch.IsDown (.button b) ·) ⟨state, .empty⟩ events (not_not.2 down) up
    have down := not_not.1 wasDown
    rcases InputEvent.moves?_eq_release.1 (Switch.moves?_of_up down isUp) with releases | rfl
    · cases InputEvent.releases?_eq_button.1 releases
      exact .inl (released.2 ⟨before, later, split, down⟩)
    · exact .inr ⟨before, later, split, down⟩

/-- The input of a window that has the focus and in which the left button is down. -/
def Input.leftDown : Input Float32 where
  state := { (.initial : InputState Float32) with focused := true, buttons := [.left] }
  delta := .empty

/-- The left button is released, and goes down and up again as the focus is lost. The right one is
pressed at last. -/
theorem button_changes_recorded_unless_focus_lost_swapped :
    let events : List (InputEvent Float32) :=
      [.button .left .release, .button .left .press, .focus false, .button .right .press]
    let after := events.foldl Input.apply .leftDown
    (.right ∉ Input.leftDown.state.buttons ∧ .right ∈ after.state.buttons ∧
      .right ∈ after.delta.buttonsPressed) ∧
    .left ∈ Input.leftDown.state.buttons ∧ .left ∉ after.state.buttons ∧
      (.left ∈ after.delta.buttonsReleased ∨
        ∃ before later : List (InputEvent Float32), events = before ++ .focus false :: later ∧
          .left ∈ (before.foldl Input.apply .leftDown).state.buttons) := by
  intro events after
  have right : .right ∉ Input.leftDown.state.buttons ∧ .right ∈ after.state.buttons := by decide
  have left : .left ∈ Input.leftDown.state.buttons ∧ .left ∉ after.state.buttons := by decide
  refine ⟨⟨right.1, right.2, ?_⟩, left.1, left.2, ?_⟩
  · exact (button_changes_recorded_unless_focus_lost Input.leftDown.state events .right).1
      right.1 right.2
  · exact (button_changes_recorded_unless_focus_lost Input.leftDown.state events .left).2.1
      left.1 left.2

/-- No frame tells that a loss of focus has let go of the left button. -/
theorem focus_loss_lets_go_unrecorded :
    let after := Input.leftDown.apply (.focus false)
    .left ∈ Input.leftDown.state.buttons ∧ Input.leftDown.delta = .empty ∧
      .left ∉ after.state.buttons ∧
      .left ∉ after.delta.buttonsReleased := by
  decide

end GroundPlane
