import GroundPlane.Input.Event
import GroundPlane.Named

/-!
# Names of keys and buttons

Keys and buttons of use to the viewer have a name of their own. Any other has its number for a name.
-/

namespace GroundPlane

namespace Key

/-- The keys that have a name of their own. -/
def table : List (String × Key) :=
  [("Escape", escape), ("Space", space), ("G", g), ("N", n), ("R", r)]

/-- The name of a key. -/
def name (k : Key) : String :=
  match k with
  | other code => numbered "Unknown" code.toNat
  | _ => ((table.find? (·.2 = k)).map (·.1)).getD ""

/-- The key with a name. -/
def ofName (s : String) : Key :=
  (table.lookup s).getD (other (.ofNat (numberIn s)))

end Key

namespace MouseButton

/-- The buttons that have a name of their own. -/
def table : List (String × MouseButton) :=
  [("Left", left), ("Right", right), ("Middle", middle)]

/-- The name of a button. -/
def name (b : MouseButton) : String :=
  match b with
  | other number => numbered "Other" number.toNat
  | _ => ((table.find? (·.2 = b)).map (·.1)).getD ""

/-- The button with a name. -/
def ofName (s : String) : MouseButton :=
  (table.lookup s).getD (other (.ofNat (numberIn s)))

end MouseButton

instance : Named Action where
  table := [("Pressed", .press), ("Released", .release)]

end GroundPlane
