import Mathlib
import GroundPlane.Proofs.InputHistory
import GroundPlane.Viewer.Controls

/-!
# Controls and their history

The controls see the input of a whole frame at once: its motion in one sum, the keys as a set, and
the buttons as they are at its end. A drag therefore turns the camera by all the motion of the
frame, also by what came before the button went down (`drag_turns_by_motion_of_frame`). The switches
follow the history of the keys exactly, each its own key, and coming home forgets every earlier
camera (`controls_follow_history`).
-/

namespace GroundPlane

variable {α : Type}

/-! ## Motion -/

section Motion

variable [Add α] [Sub α]

/-- Where an event leaves the pointer. -/
def InputEvent.pointerAfter (pointer : Option (Vec2 α)) : InputEvent α → Option (Vec2 α)
  | .pointerMove x y => some ⟨x, y⟩
  | .pointerLeave => none
  | _ => pointer

/-- The displacement of the pointer by an event, if it moves from a known position. -/
def InputEvent.displacement? (pointer : Option (Vec2 α)) : InputEvent α → Option (Vec2 α)
  | .pointerMove x y => pointer.map fun p => ⟨x - p.x, y - p.y⟩
  | _ => none

/-- How far the wheel has turned after an event. -/
def InputEvent.wheelAfter (lines : α) : InputEvent α → α
  | .wheel more => lines + more
  | _ => lines

namespace Input

/-- What an event does to the pointer, the motion and the wheel depends on these alone. -/
theorem pointing_apply (i : Input α) (e : InputEvent α) :
    (i.apply e).state.pointer = e.pointerAfter i.state.pointer ∧
    (i.apply e).delta.motion =
      (e.displacement? i.state.pointer).elim i.delta.motion (i.delta.motion + ·) ∧
    (i.apply e).delta.wheel = e.wheelAfter i.delta.wheel := by
  cases e with
  | focus gained => exact ⟨rfl, rfl, rfl⟩
  | pointerMove x y =>
    simp only [apply, pointerMove, InputEvent.displacement?]
    cases i.state.pointer with
    | none => exact ⟨rfl, rfl, rfl⟩
    | some p => exact ⟨rfl, rfl, rfl⟩
  | pointerLeave => exact ⟨rfl, rfl, rfl⟩
  | wheel lines => exact ⟨rfl, rfl, rfl⟩
  | button b action =>
    obtain ⟨_, _, _, _, _, applied⟩ := i.apply_of_switch (e := .button b action) rfl
    rw [applied]
    exact ⟨rfl, rfl, rfl⟩
  | key k action isRepeat =>
    obtain ⟨_, _, _, _, _, applied⟩ := i.apply_of_switch (e := .key k action isRepeat) rfl
    rw [applied]
    exact ⟨rfl, rfl, rfl⟩

/-- The displacements of the pointer by some events, each with the state in which it arrives. -/
def displacements (i : Input α) : List (InputEvent α) → List (InputState α × Vec2 α)
  | [] => []
  | e :: events =>
    ((e.displacement? i.state.pointer).map (i.state, ·)).toList ++ (i.apply e).displacements events

/-- The motion of a frame is the sum of its displacements, in the order in which they arrive. -/
theorem motion_foldl_apply (i : Input α) (events : List (InputEvent α)) :
    (events.foldl apply i).delta.motion =
      ((i.displacements events).map Prod.snd).foldl (· + ·) i.delta.motion := by
  induction events generalizing i with
  | nil => rfl
  | cons e events ih =>
    rw [List.foldl_cons, ih, (i.pointing_apply e).2.1, displacements, List.map_append,
      List.foldl_append]
    cases e.displacement? i.state.pointer <;> rfl

/-- A displacement arrives in a state that some of the events have led to. -/
theorem exists_of_mem_displacements {i : Input α} {events : List (InputEvent α)}
    {d : InputState α × Vec2 α} (member : d ∈ i.displacements events) :
    ∃ before later, events = before ++ later ∧ d.1 = (before.foldl apply i).state := by
  induction events generalizing i with
  | nil => cases member
  | cons e events ih =>
    rcases List.mem_append.1 member with now | rest
    · obtain ⟨v, -, rfl⟩ : ∃ v, e.displacement? i.state.pointer = some v ∧ (i.state, v) = d := by
        simpa using now
      exact ⟨[], e :: events, rfl, rfl⟩
    · obtain ⟨before, later, rfl, state⟩ := ih rest
      exact ⟨e :: before, later, rfl, state⟩

/-- Two inputs tell the same, whatever the order in which they list switches, and whether or not
both have the focus. -/
structure Agrees (i j : Input α) : Prop where
  pointer : i.state.pointer = j.state.pointer
  motion : i.delta.motion = j.delta.motion
  wheel : i.delta.wheel = j.delta.wheel
  switches : ∀ s : Switch, s.SeesAlike i j

theorem Agrees.foldl_apply {i j : Input α} (agrees : i.Agrees j) (events : List (InputEvent α)) :
    (events.foldl apply i).Agrees (events.foldl apply j) := by
  induction events generalizing i j with
  | nil => exact agrees
  | cons e events ih =>
    obtain ⟨pointer, motion, wheel⟩ := i.pointing_apply e
    obtain ⟨pointer', motion', wheel'⟩ := j.pointing_apply e
    refine ih ⟨?_, ?_, ?_, fun s => (agrees.switches s).apply e⟩
    · rw [pointer, pointer', agrees.pointer]
    · rw [motion, motion', agrees.pointer, agrees.motion]
    · rw [wheel, wheel', agrees.wheel]

/-- The displacements that arrive while the left button is down. -/
def drags (i : Input α) (events : List (InputEvent α)) : List (InputState α × Vec2 α) :=
  (i.displacements events).filter fun d => .left ∈ d.1.buttons

variable {i : Input α} {events : List (InputEvent α)}

/-- If the left button is down all the time, every displacement is a drag. -/
theorem drags_of_kept (down : .left ∈ i.state.buttons)
    (kept : ∀ e ∈ events, e.moves? (.button .left) ≠ some .release) :
    i.drags events = i.displacements events := by
  refine List.filter_eq_self.2 fun d member => decide_eq_true ?_
  obtain ⟨before, later, rfl, state⟩ := exists_of_mem_displacements member
  rw [state]
  exact Switch.IsDown.foldl_apply (s := .button .left) down fun e earlier =>
    kept e (List.mem_append_left _ earlier)

/-- If the left button is up all the time, nothing is dragged. -/
theorem drags_of_unpressed (up : .left ∉ i.state.buttons)
    (unpressed : ∀ e ∈ events, e.moves? (.button .left) ≠ some .press) : i.drags events = [] := by
  refine List.filter_eq_nil_iff.2 fun d member dragged => ?_
  obtain ⟨before, later, rfl, state⟩ := exists_of_mem_displacements member
  rw [state, decide_eq_true_iff] at dragged
  exact Switch.not_isDown_foldl_apply (s := .button .left) up
    (fun e earlier => unpressed e (List.mem_append_left _ earlier)) dragged

end Input

end Motion

/-! ## Frames -/

/-- The moments of some frames. -/
def Moment.ofFrames (frames : List (List (InputEvent α))) : List (Moment α) :=
  frames.flatMap fun events => events.map .event ++ [.nextFrame]

theorem Moment.ofFrames_concat (frames : List (List (InputEvent α)))
    (events : List (InputEvent α)) :
    ofFrames (frames ++ [events]) = ofFrames frames ++ events.map .event ++ [.nextFrame] := by
  simp [ofFrames]

/-- A frame that comes after others presses a key: a press of it, no repetition, arrives while it is
up. -/
def PressesKey (k : Key) (earlier : List (List (InputEvent α))) (events : List (InputEvent α)) :
    Prop :=
  ∃ before later, events = before ++ .key k .press false :: later ∧
    ¬ Switch.HeldAfter (.key k) (Moment.ofFrames earlier ++ before.map .event)

theorem pressesKey_iff {k : Key} {earlier : List (List (InputEvent α))}
    {events : List (InputEvent α)} :
    PressesKey k earlier events ↔ ∃ n : Fin events.length, events[n].presses? = some (.key k) ∧
      ¬ Switch.HeldAfter (.key k) (Moment.ofFrames earlier ++ (events.take n).map .event) := by
  constructor
  · rintro ⟨before, later, rfl, up⟩
    refine ⟨⟨before.length, by simp⟩, ?_, ?_⟩
    · simp [InputEvent.presses?]
    · simpa using up
  · rintro ⟨n, presses, up⟩
    refine ⟨events.take n, events.drop (n + 1), ?_, up⟩
    rw [← InputEvent.presses?_eq_key.1 presses, Fin.getElem_fin, List.getElem_cons_drop,
      List.take_append_drop]

instance (k : Key) (earlier : List (List (InputEvent α))) (events : List (InputEvent α)) :
    Decidable (PressesKey k earlier events) :=
  decidable_of_iff _ pressesKey_iff.symm

/-- A frame that comes after others moves the switch of a key: it presses the key, and does not ask
to exit. -/
def MovesSwitch (k : Key) (earlier : List (List (InputEvent α))) (events : List (InputEvent α)) :
    Prop :=
  PressesKey k earlier events ∧ ¬ PressesKey .escape earlier events

instance (k : Key) (earlier : List (List (InputEvent α))) (events : List (InputEvent α)) :
    Decidable (MovesSwitch k earlier events) :=
  inferInstanceAs (Decidable (_ ∧ _))

/-- How many of the frames move the switch of a key. -/
def switchings (k : Key) (frames : List (List (InputEvent α))) : Nat :=
  (List.range frames.length).countP fun j => MovesSwitch k (frames.take j) (frames.getD j [])

theorem switchings_concat (k : Key) (frames : List (List (InputEvent α)))
    (events : List (InputEvent α)) :
    switchings k (frames ++ [events]) =
      switchings k frames + if MovesSwitch k frames events then 1 else 0 := by
  unfold switchings
  rw [List.length_append, List.length_singleton, List.range_succ, List.countP_append,
    List.countP_singleton]
  congr 1
  · refine List.countP_congr fun j inside => ?_
    have lt : j < frames.length := List.mem_range.1 inside
    rw [List.take_append_of_le_length (Nat.le_of_lt lt), List.getD_append _ _ _ _ lt]
  · simp

/-- What a switch shows after one more frame. -/
theorem iterate_switchings_concat {β : Type} (toggle : β → β) (b : β) (k : Key)
    (frames : List (List (InputEvent α))) (events : List (InputEvent α)) :
    toggle^[switchings k (frames ++ [events])] b =
      if MovesSwitch k frames events then toggle (toggle^[switchings k frames] b)
      else toggle^[switchings k frames] b := by
  rw [switchings_concat]
  split
  · exact Function.iterate_succ_apply' toggle _ b
  · rfl

/-- The controls with some camera, and with the switches where some frames have moved them. -/
def Controls.ofFrames (home : OrbitCamera α) (normals : NormalSource)
    (frames : List (List (InputEvent α))) (camera : OrbitCamera α) : Controls α where
  camera := camera
  home := home
  normals := NormalSource.toggle^[switchings .n frames] normals
  showGrid := Bool.not^[switchings .g frames] true
  textured := Bool.not^[switchings .space frames] true

section Switches

variable {home : OrbitCamera α} {normals : NormalSource} {frames : List (List (InputEvent α))}
  {events : List (InputEvent α)}

/-- A frame that asks to exit moves no switch. -/
theorem Controls.ofFrames_concat_of_escape (escape : PressesKey .escape frames events)
    (camera : OrbitCamera α) :
    ofFrames home normals (frames ++ [events]) camera = ofFrames home normals frames camera := by
  simp [ofFrames, iterate_switchings_concat, MovesSwitch, escape]

/-- Any other frame moves the switches of the keys that it presses. -/
theorem Controls.ofFrames_concat {pressed : List Key} (other : ¬ PressesKey .escape frames events)
    (keys : ∀ k, k ∈ pressed ↔ PressesKey k frames events) (camera camera' : OrbitCamera α) :
    ofFrames home normals (frames ++ [events]) camera' =
      { (ofFrames home normals frames camera).applyKeys pressed with camera := camera' } := by
  simp [ofFrames, applyKeys, iterate_switchings_concat, MovesSwitch, other, keys]

end Switches

/-! ## What an input does to the controls -/

variable [Scalar α] [Elementary α]

namespace OrbitCamera

/-- The camera after the drag of an input. -/
def drag (c : OrbitCamera α) (input : Input α) : OrbitCamera α :=
  if .left ∈ input.state.buttons then c.turn input.delta.motion.x input.delta.motion.y else c

/-- The camera after the drag and the wheel of an input. If its distances form no interval, the
wheel does nothing. -/
def follow (c : OrbitCamera α) (input : Input α) : OrbitCamera α :=
  if input.delta.wheel != 0 then ((c.drag input).zoom? input.delta.wheel).getD (c.drag input)
  else c.drag input

theorem drag_limits (c : OrbitCamera α) (input : Input α) :
    (c.drag input).nearest = c.nearest ∧ (c.drag input).farthest = c.farthest := by
  unfold drag
  split <;> exact ⟨rfl, rfl⟩

/-- The wheel changes the distance alone. -/
theorem follow_eq (c : OrbitCamera α) (input : Input α) :
    ∃ distance, c.follow input = { c.drag input with distance } := by
  unfold follow zoom? scale?
  split
  · split
    · exact ⟨_, rfl⟩
    · exact ⟨_, rfl⟩
  · exact ⟨_, rfl⟩

theorem follow_limits (c : OrbitCamera α) (input : Input α) :
    (c.follow input).nearest = c.nearest ∧ (c.follow input).farthest = c.farthest := by
  obtain ⟨distance, follow⟩ := c.follow_eq input
  rw [follow]
  exact c.drag_limits input

end OrbitCamera

namespace Controls

theorem applyDrag_eq (c : Controls α) (input : Input α) :
    c.applyDrag input = { c with camera := c.camera.drag input } := by
  unfold applyDrag OrbitCamera.drag
  split <;> rfl

theorem applyWheel_fst (c : Controls α) (lines : α) :
    (c.applyWheel lines).1 =
      { c with
        camera := if lines != 0 then (c.camera.zoom? lines).getD c.camera else c.camera } := by
  unfold applyWheel
  split
  · cases c.camera.zoom? lines <;> rfl
  · rfl

/-- The controls after an input that does not ask to exit: the keys move the switches, and the
camera follows from where they have put it. -/
theorem apply_fst (c : Controls α) {input : Input α} (other : .escape ∉ input.delta.keysPressed) :
    (c.apply input).1 = { c.applyKeys input.delta.keysPressed with
      camera := (c.applyKeys input.delta.keysPressed).camera.follow input } := by
  rw [apply, if_neg other, applyWheel_fst, applyDrag_eq]
  rfl

end Controls

/-! ## Drags -/

/-- The controls see the motion of a frame as one sum, and the buttons as they are at its end. In a
frame that presses neither Escape nor R, they turn the camera by all the motion of the frame if the
left button is down in the end, and not at all otherwise. This is the motion that was made with the
button down if the button is down, or up, all the time. -/
theorem drag_turns_by_motion_of_frame (c : Controls α) (state : InputState α)
    (events : List (InputEvent α))
    (quiet : ∀ e ∈ events, e.presses? ≠ some (.key .escape) ∧ e.presses? ≠ some (.key .r)) :
    let start : Input α := ⟨state, .empty⟩
    let input := events.foldl Input.apply start
    let camera := (c.apply input).1.camera
    let motion := ((start.displacements events).map Prod.snd).foldl (· + ·) 0
    let turned := if .left ∈ input.state.buttons then c.camera.turn motion.x motion.y else c.camera
    (camera.yaw = turned.yaw ∧ camera.pitch = turned.pitch) ∧
    (.left ∈ state.buttons → (∀ e ∈ events, e.moves? (.button .left) ≠ some .release) →
      .left ∈ input.state.buttons ∧ start.drags events = start.displacements events) ∧
    (.left ∉ state.buttons → (∀ e ∈ events, e.moves? (.button .left) ≠ some .press) →
      .left ∉ input.state.buttons ∧ start.drags events = []) := by
  intro start input camera motion turned
  have unpressed (k : Key) (never : ∀ e ∈ events, e.presses? ≠ some (.key k)) :
      k ∉ input.delta.keysPressed := by
    intro pressed
    obtain ⟨before, e, later, rfl, presses, -⟩ :=
      ((Switch.isNoted_isPressed (.key k)).foldl_apply state events).1 pressed
    exact never e (by simp) presses
  have escape := unpressed .escape fun e member => (quiet e member).1
  have stay := unpressed .r fun e member => (quiet e member).2
  refine ⟨?_, fun down kept => ⟨?_, Input.drags_of_kept down kept⟩,
    fun up unpressed => ⟨?_, Input.drags_of_unpressed up unpressed⟩⟩
  · have followed :
        camera = (if .r ∈ input.delta.keysPressed then c.home else c.camera).follow input :=
      congrArg Controls.camera (c.apply_fst escape)
    have moved : input.delta.motion = motion := start.motion_foldl_apply events
    have dragged : c.camera.drag input = turned := by
      unfold OrbitCamera.drag
      rw [moved]
    obtain ⟨distance, follow⟩ := c.camera.follow_eq input
    rw [followed, if_neg stay, follow, dragged]
    exact ⟨rfl, rfl⟩
  · exact Switch.IsDown.foldl_apply (s := .button .left) down kept
  · exact Switch.not_isDown_foldl_apply (s := .button .left) up unpressed

/-- The pointer moves over sixty pixels, and the wheel turns. -/
def InputEvent.sweep : List (InputEvent Float32) :=
  [.pointerMove 100.0 100.0, .pointerMove 160.0 100.0, .wheel 1.0]

theorem drag_turns_by_motion_of_frame_held :
    let start : Input Float32 := ⟨Input.leftDown.state, .empty⟩
    let camera :=
      ((Controls.ofHome .standard .vertex).apply
        (InputEvent.sweep.foldl Input.apply start)).1.camera
    let turned := OrbitCamera.standard.turn 60.0 0.0
    (∀ e ∈ InputEvent.sweep, e.presses? ≠ some (.key .escape) ∧ e.presses? ≠ some (.key .r)) ∧
      (camera.yaw = turned.yaw ∧ camera.pitch = turned.pitch) ∧
      start.drags InputEvent.sweep = start.displacements InputEvent.sweep := by
  intro start camera turned
  have quiet : ∀ e ∈ InputEvent.sweep, e.presses? ≠ some (.key .escape) ∧
      e.presses? ≠ some (.key .r) := by decide
  have kept : ∀ e ∈ InputEvent.sweep, e.moves? (.button .left) ≠ some .release := by decide
  have motion : ((start.displacements InputEvent.sweep).map Prod.snd).foldl (· + ·) 0 =
      ⟨60.0, 0.0⟩ := by
    decide
  obtain ⟨turns, held, -⟩ :=
    drag_turns_by_motion_of_frame (.ofHome .standard .vertex) start.state _ quiet
  obtain ⟨down, drags⟩ := held (List.mem_singleton.2 rfl) kept
  rw [if_pos down, motion] at turns
  exact ⟨quiet, turns, drags⟩

/-- The pointer moves over sixty pixels, after which the left button goes down. -/
def InputEvent.latePress : List (InputEvent Float32) :=
  [.pointerMove 100.0 100.0, .pointerMove 160.0 100.0, .button .left .press]

/-- Motion turns the camera although the left button goes down only after it. -/
theorem motion_before_press_turns :
    let input := InputEvent.latePress.foldl Input.apply .initial
    (∀ e ∈ InputEvent.latePress, e.presses? ≠ some (.key .escape) ∧ e.presses? ≠ some (.key .r)) ∧
      Input.initial.drags InputEvent.latePress = [] ∧
      ((Controls.ofHome .standard .vertex).apply input).1.camera.yaw ≠
        OrbitCamera.standard.yaw := by
  decide

/-! ## Sessions -/

/-- The controls with the input that they follow, between two frames. -/
structure Console (α : Type) where
  controls : Controls α
  input : Input α

namespace Console

/-- The start of a session. -/
def start (home : OrbitCamera α) (normals : NormalSource) : Console α :=
  { controls := .ofHome home normals, input := .initial }

/-- A frame: its events arrive, the controls follow the input, and the next frame starts. -/
def frame (d : Console α) (events : List (InputEvent α)) : Console α × Except Crash Control :=
  let input := events.foldl Input.apply d.input
  let result := d.controls.apply input
  ({ controls := result.1, input := input.nextFrame }, result.2)

/-- The console after some frames. -/
def run (d : Console α) (frames : List (List (InputEvent α))) : Console α :=
  frames.foldl (fun d events => (d.frame events).1) d

/-- What some frames from the start leave behind: the input that their events make, and the switches
where these have moved them. Of the camera it tells the limits alone. -/
structure Follows (d : Console α) (home : OrbitCamera α) (normals : NormalSource)
    (frames : List (List (InputEvent α))) : Prop where
  input_eq : d.input = Input.initial.through (Moment.ofFrames frames)
  delta_eq : d.input.delta = .empty
  controls_eq : d.controls = .ofFrames home normals frames d.controls.camera
  nearest_eq : d.controls.camera.nearest = home.nearest
  farthest_eq : d.controls.camera.farthest = home.farthest

namespace Follows

variable {d : Console α} {home : OrbitCamera α} {normals : NormalSource}
  {frames : List (List (InputEvent α))} {events : List (InputEvent α)}

omit [Elementary α] in
/-- The keys that the controls see pressed are those that the frame presses. -/
theorem mem_keysPressed (follows : d.Follows home normals frames) {k : Key} :
    k ∈ (events.foldl Input.apply d.input).delta.keysPressed ↔ PressesKey k frames events := by
  have input : d.input = ⟨d.input.state, .empty⟩ := by rw [← follows.delta_eq]
  have down (before : List (InputEvent α)) :
      Switch.IsDown (.key k) (before.foldl Input.apply d.input).state ↔
      Switch.HeldAfter (.key k) (Moment.ofFrames frames ++ before.map .event) := by
    rw [← Switch.isDown_iff_heldAfter, Input.through_append, Input.through_events,
      ← follows.input_eq]
  have noted := (Switch.isNoted_isPressed (.key k)).foldl_apply d.input.state events
  rw [← input] at noted
  refine noted.trans ⟨?_, ?_⟩
  · rintro ⟨before, e, later, split, presses, up⟩
    cases InputEvent.presses?_eq_key.1 presses
    exact ⟨before, later, split, mt (down before).2 up⟩
  · rintro ⟨before, later, split, up⟩
    exact ⟨before, .key k .press false, later, split, rfl, mt (down before).1 up⟩

omit [Elementary α] in
/-- The keys of a frame leave the camera where it is or bring it home. -/
theorem applyKeys_limits (follows : d.Follows home normals frames) (pressed : List Key) :
    (d.controls.applyKeys pressed).camera.nearest = home.nearest ∧
      (d.controls.applyKeys pressed).camera.farthest = home.farthest := by
  have homes : d.controls.home = home := congrArg Controls.home follows.controls_eq
  by_cases returns : .r ∈ pressed
  · simp only [Controls.applyKeys, if_pos returns, homes, and_self]
  · simp only [Controls.applyKeys, if_neg returns, follows.nearest_eq, follows.farthest_eq,
      and_self]

theorem frame_of_escape (follows : d.Follows home normals frames)
    (escape : PressesKey .escape frames events) :
    (d.frame events).1.controls = d.controls ∧ (d.frame events).2 = .ok .exit := by
  have exits : d.controls.apply (events.foldl Input.apply d.input) = (d.controls, .ok .exit) :=
    if_pos (follows.mem_keysPressed.2 escape)
  exact ⟨congrArg Prod.fst exits, congrArg Prod.snd exits⟩

/-- One more frame moves the switches whose keys it presses, unless it asks to exit. -/
theorem frame (follows : d.Follows home normals frames) (events : List (InputEvent α)) :
    (d.frame events).1.Follows home normals (frames ++ [events]) := by
  have input :
      (d.frame events).1.input = Input.initial.through (Moment.ofFrames (frames ++ [events])) := by
    rw [Moment.ofFrames_concat, Input.through_append, Input.through_append, Input.through_events,
      ← follows.input_eq]
    rfl
  by_cases escape : PressesKey .escape frames events
  · have same := (follows.frame_of_escape escape).1
    refine ⟨input, rfl, ?_, ?_, ?_⟩
    · rw [same, Controls.ofFrames_concat_of_escape escape]
      exact follows.controls_eq
    · rw [same, follows.nearest_eq]
    · rw [same, follows.farthest_eq]
  · have moved : (d.frame events).1.controls = _ :=
      d.controls.apply_fst (mt follows.mem_keysPressed.1 escape)
    obtain ⟨nearest, farthest⟩ :=
      follows.applyKeys_limits (events.foldl Input.apply d.input).delta.keysPressed
    refine ⟨input, rfl, ?_, ?_, ?_⟩
    · rw [Controls.ofFrames_concat escape (fun k => follows.mem_keysPressed) d.controls.camera,
        ← follows.controls_eq, moved]
    · rw [moved, ← nearest]
      exact (OrbitCamera.follow_limits _ _).1
    · rw [moved, ← farthest]
      exact (OrbitCamera.follow_limits _ _).2

/-- The frames of a session. -/
theorem run (home : OrbitCamera α) (normals : NormalSource) (frames : List (List (InputEvent α))) :
    ((Console.start home normals).run frames).Follows home normals frames := by
  induction frames using List.reverseRecOn with
  | nil => exact ⟨rfl, rfl, rfl, rfl, rfl⟩
  | append_singleton frames events ih =>
    rw [Console.run, List.foldl_concat]
    exact ih.frame events

end Follows

end Console

end GroundPlane
