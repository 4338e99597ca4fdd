import GroundPlane.View.Camera

/-!
# Orbiting cameras

A camera on a sphere around its target. The pitch keeps clear of the poles, where the view would
lose its upright direction, and the distance keeps clear of the clip planes.
-/

namespace GroundPlane

/-- A camera that circles a target. Angles are in radians: `yaw` about the vertical axis, `pitch`
above the ground. `rotateSpeed` is in radians per pixel of a drag, `zoomSpeed` the share of the
distance that one line of the wheel covers. -/
structure OrbitCamera (α : Type) where
  target : Vec3 α
  yaw : α
  pitch : α
  distance : α
  fovY : α
  near : α
  far : α
  rotateSpeed : α
  zoomSpeed : α
deriving DecidableEq

namespace OrbitCamera

variable {α : Type} [Scalar α] [Elementary α]

/-- The camera at the start of a session. -/
def standard : OrbitCamera Float32 where
  target := 0
  yaw := 0.6
  pitch := 0.45
  distance := 8.0
  fovY := 0.7853981633974483
  near := 0.01
  far := 100.0
  rotateSpeed := 0.005
  zoomSpeed := 0.1

/-- The largest pitch: a hundredth of a radian short of straight up. -/
def pitchLimit : α :=
  Elementary.quarterTurn - 0.01

/-- The smallest distance from the target. -/
def nearest (c : OrbitCamera α) : α :=
  c.near * 2.0

/-- The largest distance from the target. -/
def farthest (c : OrbitCamera α) : α :=
  c.far * 0.5

/-- Turns the camera by a drag of so many pixels. -/
def turn (c : OrbitCamera α) (dx dy : α) : OrbitCamera α :=
  { c with
    yaw := c.yaw - dx * c.rotateSpeed
    pitch := Scalar.clamp (-pitchLimit) pitchLimit (c.pitch + dy * c.rotateSpeed) }

/-- Scales the distance from the target. There is no result if the allowed distances form no
interval. -/
def scale? (c : OrbitCamera α) (factor : α) : Option (OrbitCamera α) :=
  if c.nearest ≤ c.farthest then
    some { c with distance := Scalar.clamp c.nearest c.farthest (c.distance * factor) }
  else
    none

/-- Moves the camera towards the target by so many lines of the wheel. -/
def zoom? (c : OrbitCamera α) (lines : α) : Option (OrbitCamera α) :=
  c.scale? (Elementary.pow (1 - c.zoomSpeed) lines)

/-- Moves the camera by lines of the wheel that are given by the bits of their number. The bits can
tell a signaling NaN, after which the distance is undefined, from a quiet one; a `Float32`
cannot. -/
def zoomBits? (c : OrbitCamera Float32) (lines : UInt32) : Option (OrbitCamera Float32) :=
  c.scale? (Power.powOfBits (1 - c.zoomSpeed) lines)

/-- The position of the camera. -/
def eye (c : OrbitCamera α) : Vec3 α :=
  let sy := Elementary.sin c.yaw
  let cy := Elementary.cos c.yaw
  let sp := Elementary.sin c.pitch
  let cp := Elementary.cos c.pitch
  c.target + (⟨sy * cp, sp, cy * cp⟩ : Vec3 α) * c.distance

/-- The camera as seen from its present position. -/
def camera (c : OrbitCamera α) : Camera α where
  eye := c.eye
  target := c.target
  up := ⟨0, 1, 0⟩
  fovY := c.fovY
  near := c.near
  far := c.far

end OrbitCamera

end GroundPlane
