import GroundPlane.Session.Names
import GroundPlane.Viewer.App

/-!
# The command line

Runs the viewer without a screen, on the callbacks named line by line on standard input.
-/

namespace GroundPlane

/-- The lines of a stream, without the blanks around them. -/
partial def readLines (input : IO.FS.Stream) (lines : Array String) : IO (Array String) := do
  let line ← input.getLine
  if line.isEmpty then
    return lines
  else
    readLines input (lines.push line.trimAscii.toString)

end GroundPlane

open GroundPlane

/-- Runs the viewer, and reports a failure on standard error. -/
def main : IO UInt32 := do
  let lines ← readLines (← IO.getStdin) #[]
  let callbacks := lines.toList.filterMap Callback.ofName?
  let host := Host.initial .standard { width := 1280, height := 720 } [] []
  match (Viewer.run .standard callbacks).run host with
  | .ok (report, _) =>
      match report.result with
      | .ok _ => return 0
      | .error e =>
          IO.eprintln ("Error: " ++ e.message)
          return 1
  | .error _ => return 101
