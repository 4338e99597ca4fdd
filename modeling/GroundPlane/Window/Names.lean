import GroundPlane.Input.Names
import GroundPlane.Window.Event

/-!
# Names in window events
-/

namespace GroundPlane

/-- The window's button with a name. -/
def WindowButton.ofName (s : String) : WindowButton :=
  let table := [
    ("Left", left), ("Right", right), ("Middle", middle), ("Back", back), ("Forward", forward)]
  (table.lookup s).getD (other (.ofNat (numberIn s)))

/-- The physical key with a name. -/
def PhysicalKey.ofName? (s : String) : Option PhysicalKey :=
  if s = "Unidentified" then some unidentified else (KeyCode.ofName? s).map code

/-- The window event with a name, for events that carry nothing else. -/
def WindowEvent.ofName? (s : String) : Option WindowEvent :=
  List.lookup s [
    ("CursorEntered", cursorEntered), ("CursorLeft", cursorLeft),
    ("RedrawRequested", redrawRequested),
    ("CloseRequested", closeRequested), ("Destroyed", destroyed), ("Moved", moved),
    ("Occluded", occluded), ("HoveredFileCancelled", hoveredFileCancelled)]

end GroundPlane
