import GroundPlane.View.Orbit
import GroundPlane.Lighting.Stage
import GroundPlane.Input.State
import GroundPlane.Session.Control

/-!
# Controls

What the user can change: Escape ends the session, N switches the normals, Space the texture and G
the grid, R brings the camera home, a drag with the left button turns it and the wheel zooms.
-/

namespace GroundPlane

/-- The camera with the one to come home to, and the switches. -/
structure Controls (α : Type) where
  camera : OrbitCamera α
  home : OrbitCamera α
  normals : NormalSource
  showGrid : Bool
  textured : Bool
deriving DecidableEq

namespace Controls

variable {α : Type} [Scalar α] [Elementary α]

/-- The controls at the start: at home, with grid and texture. -/
def ofHome (home : OrbitCamera α) (normals : NormalSource) : Controls α :=
  { camera := home, home, normals, showGrid := true, textured := true }

/-- Follows the switches among the keys that were pressed. -/
def applyKeys (c : Controls α) (pressed : List Key) : Controls α where
  camera := if .r ∈ pressed then c.home else c.camera
  home := c.home
  normals := if .n ∈ pressed then c.normals.toggle else c.normals
  showGrid := if .g ∈ pressed then !c.showGrid else c.showGrid
  textured := if .space ∈ pressed then !c.textured else c.textured

/-- Turns the camera by the pointer's motion if the left button is held. -/
def applyDrag (c : Controls α) (input : Input α) : Controls α :=
  if .left ∈ input.state.buttons then
    { c with camera := c.camera.turn input.delta.motion.x input.delta.motion.y }
  else c

/-- Zooms by the wheel's motion. -/
def applyWheel (c : Controls α) (lines : α) : Controls α × Except Crash Control :=
  if lines != 0 then
    match c.camera.zoom? lines with
    | some camera => ({ c with camera }, .ok .proceed)
    | none => (c, .error .zoomRange)
  else (c, .ok .proceed)

/-- The controls after the input of a frame, and what the frame asks for. Escape leaves everything
as it is. -/
def apply (c : Controls α) (input : Input α) : Controls α × Except Crash Control :=
  if .escape ∈ input.delta.keysPressed then (c, .ok .exit)
  else ((c.applyKeys input.delta.keysPressed).applyDrag input).applyWheel input.delta.wheel

end Controls

end GroundPlane
