import GroundPlane.Session.Loop
import GroundPlane.Window.Names

/-!
# Names of callbacks
-/

namespace GroundPlane

/-- The callback with a name, for callbacks that carry nothing else. -/
def Callback.ofName? : String → Option Callback
  | "resumed" => some .resumed
  | "about_to_wait" => some .aboutToWait
  | s => (WindowEvent.ofName? s).map .window

end GroundPlane
