import GroundPlane.Input.Event
import GroundPlane.Scalar.Rounding
import GroundPlane.Gpu.Surface
import GroundPlane.Window.KeyCode

/-!
# Window events

What a window reports, and the input events among it.
-/

namespace GroundPlane

/-- A button as the window reports it. -/
inductive WindowButton
  | left
  | right
  | middle
  | back
  | forward
  | other (number : UInt16)
deriving DecidableEq

/-- What a window reports. Positions are in double precision. -/
inductive WindowEvent
  | focused (gained : Bool)
  | cursorEntered
  | cursorMoved (x y : Float)
  | cursorLeft
  | mouseInput (button : WindowButton) (action : Action)
  | wheelLines (x y : Float32)
  | wheelPixels (x y : Float)
  | keyboardInput (key : PhysicalKey) (action : Action) (isRepeat : Bool)
  | resized (size : Size)
  | scaleFactorChanged (scale : Float) (size : Size)
  | redrawRequested
  | closeRequested
  | destroyed
  | moved
  | occluded
  | hoveredFileCancelled

/-- What a button does. -/
def WindowButton.toMouseButton : WindowButton → MouseButton
  | left => .left
  | right => .right
  | middle => .middle
  | back => .other 3
  | forward => .other 4
  | other number => .other number

/-- What a key does. A key without a code counts as code zero. -/
def PhysicalKey.toKey : PhysicalKey → Key
  | unidentified => .other 0
  | code c =>
      match c.name with
      | "Escape" => .escape
      | "Space" => .space
      | "KeyG" => .g
      | "KeyN" => .n
      | "KeyR" => .r
      | _ => .other (.ofNat c.place)

namespace WindowEvent

/-- The pixels that make a line of the wheel, for devices that scroll by pixels. -/
def pixelsPerLine : Float32 := 40.0

/-- The input event that a window event stands for. -/
def toInput? : WindowEvent → Option (InputEvent Float32)
  | focused gained => some (.focus gained)
  | cursorLeft => some .pointerLeave
  | cursorMoved x y => some (.pointerMove (Rounding.narrow x) (Rounding.narrow y))
  | mouseInput b action => some (.button b.toMouseButton action)
  | wheelLines _ y => some (.wheel y)
  | wheelPixels _ y => some (.wheel (Rounding.narrow y / pixelsPerLine))
  | keyboardInput key action isRepeat => some (.key key.toKey action isRepeat)
  | _ => none

/-- The size of the window that an event reports. -/
def newSize? : WindowEvent → Option Size
  | resized size => some size
  | scaleFactorChanged _ size => some size
  | _ => none

end WindowEvent

end GroundPlane
