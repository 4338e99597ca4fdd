/-!
# Input events
-/

namespace GroundPlane

/-- A key, by what the viewer uses it for; any other key by its code. -/
inductive Key
  | escape
  | space
  | g
  | n
  | r
  | other (code : UInt32)
deriving DecidableEq

/-- A button of the pointing device. -/
inductive MouseButton
  | left
  | right
  | middle
  | other (number : UInt16)
deriving DecidableEq

/-- What happens to a key or button. -/
inductive Action
  | press
  | release
deriving DecidableEq

/-- Something that the user does. Positions are in pixels, wheel motion in lines. A key that is kept
down may be pressed again and again, with `isRepeat` set. -/
inductive InputEvent (α : Type)
  | focus (gained : Bool)
  | pointerMove (x y : α)
  | pointerLeave
  | button (button : MouseButton) (action : Action)
  | wheel (lines : α)
  | key (key : Key) (action : Action) (isRepeat : Bool)
deriving DecidableEq

end GroundPlane
