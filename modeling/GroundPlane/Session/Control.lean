/-!
# Control of a session
-/

namespace GroundPlane

/-- What a frame asks for. -/
inductive Control
  | proceed
  | exit
deriving DecidableEq

/-- A broken promise of the program's own state, which ends it at once: the distances that a camera
may take form no interval, or the time since the start has left its range. -/
inductive Crash
  | zoomRange
  | clockOverflow
deriving DecidableEq

end GroundPlane
