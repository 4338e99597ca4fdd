/-!
# The program's name
-/

namespace GroundPlane

/-- The name that stands in window titles and in the labels of device objects. -/
def programName : String := "groundline"

/-- The label of a device object. -/
def label (what : String) : String :=
  programName ++ " " ++ what

end GroundPlane
