import GroundPlane.Clock.Duration

/-!
# The frame clock

The clock adds up the time between frames, each clamped so that a stall does not become one long
step.
-/

namespace GroundPlane

/-- The time of a frame: seconds since the frame before, seconds since the start, and the frame's
number. -/
structure FrameTime where
  delta : Float32
  elapsed : Float32
  index : UInt64
deriving DecidableEq

/-- A clock that counts frames. -/
structure FrameClock where
  elapsed : Duration
  index : UInt64
  shortest : Duration
  longest : Duration
deriving DecidableEq

namespace FrameClock

/-- A clock at zero that clamps each frame to an interval of durations. -/
def withRange? (shortest longest : Duration) : Option FrameClock :=
  if shortest.toNanos ≤ longest.toNanos then
    some { elapsed := .zero, index := 0, shortest, longest }
  else none

/-- A clock at zero that takes a frame to last from 0.1 to 250 milliseconds. -/
def standard : FrameClock where
  elapsed := .zero
  index := 0
  shortest := .ofSubsecond 100000
  longest := .ofSubsecond 250000000

/-- The clock after a measured time, and the next frame. There is no frame if the sum of times
leaves its range, and then the clock stays as it is. -/
def advance (c : FrameClock) (measured : Duration) : FrameClock × Option FrameTime :=
  let delta := Duration.clamp c.shortest c.longest measured
  match c.elapsed.add? delta with
  | some elapsed =>
      ({ c with elapsed, index := c.index + 1 },
        some { delta := delta.toSeconds, elapsed := elapsed.toSeconds, index := c.index })
  | none => (c, none)

section

variable {c : FrameClock} {measured : Duration}

theorem advance_of_sum {elapsed : Duration}
    (sum : c.elapsed.add? (.clamp c.shortest c.longest measured) = some elapsed) :
    c.advance measured =
      ({ c with elapsed, index := c.index + 1 },
        some {
          delta := (Duration.clamp c.shortest c.longest measured).toSeconds
          elapsed := elapsed.toSeconds
          index := c.index }) := by
  simp only [advance, sum]

theorem advance_of_overflow
    (overflow : c.elapsed.add? (.clamp c.shortest c.longest measured) = none) :
    c.advance measured = (c, none) := by
  simp only [advance, overflow]

end

/-- The next frame with the clock after it. -/
def advance? (c : FrameClock) (measured : Duration) : Option (FrameTime × FrameClock) :=
  let (c, time) := c.advance measured
  time.map (·, c)

end FrameClock

end GroundPlane
