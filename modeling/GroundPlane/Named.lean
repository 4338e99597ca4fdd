/-!
# Named values
-/

namespace GroundPlane

/-- Values that are known by a name. -/
class Named (β : Type) where
  /-- All values with their names. -/
  table : List (String × β)

namespace Named

variable {β : Type} [Named β]

/-- The name of a value; empty for a value that has none. -/
def name [DecidableEq β] (b : β) : String :=
  ((table.find? (·.2 = b)).map (·.1)).getD ""

/-- The value with a name. -/
def ofName? (s : String) : Option β :=
  table.lookup s

end Named

/-- A name with a number in brackets, such as `Other(3)`. -/
def numbered (name : String) (n : Nat) : String :=
  name ++ "(" ++ toString n ++ ")"

/-- The number in a numbered name. -/
def numberIn (s : String) : Nat :=
  (s.toList.filter Char.isDigit).foldl (fun n c => n * 10 + (c.toNat - '0'.toNat)) 0

end GroundPlane
