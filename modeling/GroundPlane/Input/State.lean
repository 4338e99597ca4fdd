import GroundPlane.Geometry.Vector
import GroundPlane.Input.Event

/-!
# Input state

What is held down now, and what has changed since the last frame. Keys and buttons that are down
form a set, kept as a list without repetition.
-/

namespace GroundPlane

/-- What is held down at a moment, and where the pointer is if it is inside the window. -/
structure InputState (α : Type) where
  focused : Bool
  pointer : Option (Vec2 α)
  keys : List Key
  buttons : List MouseButton
deriving DecidableEq

/-- What has happened since the last frame: motion and wheel summed up, and the keys and buttons
that went down or up. -/
structure InputDelta (α : Type) where
  motion : Vec2 α
  wheel : α
  keysPressed : List Key
  buttonsPressed : List MouseButton
  buttonsReleased : List MouseButton
deriving DecidableEq

/-- The state together with the changes of the current frame. -/
structure Input (α : Type) where
  state : InputState α
  delta : InputDelta α
deriving DecidableEq

variable {α : Type}

/-- Nothing is down and the window has no focus. -/
def InputState.initial : InputState α :=
  { focused := false, pointer := none, keys := [], buttons := [] }

/-- Nothing has happened. -/
def InputDelta.empty [Zero α] : InputDelta α :=
  { motion := 0, wheel := 0, keysPressed := [], buttonsPressed := [], buttonsReleased := [] }

namespace Input

/-- The input of a window that has just opened. -/
def initial [Zero α] : Input α :=
  { state := .initial, delta := .empty }

/-- Focus is gained or lost. Nothing counts as held while it is lost, since releases are not seen
then. -/
def focus (i : Input α) (gained : Bool) : Input α :=
  { i with
    state := { i.state with
      focused := gained
      keys := if gained then i.state.keys else []
      buttons := if gained then i.state.buttons else [] } }

/-- The pointer moves. The motion counts from the last position inside the window, if there is
one. -/
def pointerMove [Add α] [Sub α] (i : Input α) (x y : α) : Input α :=
  { state := { i.state with pointer := some ⟨x, y⟩ }
    delta :=
      match i.state.pointer with
      | none => i.delta
      | some p => { i.delta with motion := i.delta.motion + ⟨x - p.x, y - p.y⟩ } }

/-- The pointer leaves the window. -/
def pointerLeave (i : Input α) : Input α :=
  { i with state := { i.state with pointer := none } }

/-- A button goes down. -/
def pressButton (i : Input α) (b : MouseButton) : Input α :=
  if b ∈ i.state.buttons then i
  else
    { state := { i.state with buttons := i.state.buttons.insert b }
      delta := { i.delta with buttonsPressed := i.delta.buttonsPressed.insert b } }

/-- A button goes up. -/
def releaseButton (i : Input α) (b : MouseButton) : Input α :=
  if b ∈ i.state.buttons then
    { state := { i.state with buttons := i.state.buttons.filter (· ≠ b) }
      delta := { i.delta with buttonsReleased := i.delta.buttonsReleased.insert b } }
  else i

/-- The wheel turns. -/
def wheel [Add α] (i : Input α) (lines : α) : Input α :=
  { i with delta := { i.delta with wheel := i.delta.wheel + lines } }

/-- A key goes down or repeats. Only a key that was up counts as pressed, and only if this is no
repetition. -/
def pressKey (i : Input α) (k : Key) (isRepeat : Bool) : Input α :=
  if k ∈ i.state.keys then i
  else
    { state := { i.state with keys := i.state.keys.insert k }
      delta :=
        if isRepeat then i.delta
        else { i.delta with keysPressed := i.delta.keysPressed.insert k } }

/-- A key goes up. -/
def releaseKey (i : Input α) (k : Key) : Input α :=
  { i with state := { i.state with keys := i.state.keys.filter (· ≠ k) } }

/-- The input after an event. -/
def apply [Add α] [Sub α] (i : Input α) : InputEvent α → Input α
  | .focus gained => i.focus gained
  | .pointerMove x y => i.pointerMove x y
  | .pointerLeave => i.pointerLeave
  | .button b .press => i.pressButton b
  | .button b .release => i.releaseButton b
  | .wheel lines => i.wheel lines
  | .key k .press isRepeat => i.pressKey k isRepeat
  | .key k .release _ => i.releaseKey k

/-- The input at the start of the next frame. -/
def nextFrame [Zero α] (i : Input α) : Input α :=
  { i with delta := .empty }

end Input

end GroundPlane
