import GroundPlane.Trace

/-!
# Hosts

The outside of a session: what the window, the surface and the device answer, and how much time
passes between frames. A session is a computation that talks to a host and may crash.
-/

namespace GroundPlane

open Gpu

/-- The calls of the outside that fail, each with the reason that it gives. -/
structure Faults where
  eventLoop : Option String
  runLoop : Option String
  createWindow : Option String
  createSurface : Option String
  requestAdapter : Option String
  requestDevice : Option String
deriving DecidableEq

/-- Nothing fails. -/
def Faults.none : Faults :=
  ⟨.none, .none, .none, .none, .none, .none⟩

/-- What stays the same during a session: the offers of the surface, the alignment of uniform
offsets, and what fails. -/
structure Platform where
  formats : List TextureFormat
  alphaModes : List AlphaMode
  alignment : UInt64
  faults : Faults
deriving DecidableEq

/-- A platform on which nothing fails, with one surface format. -/
def Platform.standard : Platform where
  formats := [.bgra8UnormSrgb]
  alphaModes := [.solid]
  alignment := 256
  faults := .none

/-- The outside of a session. `acquires` are the coming answers of the surface, where none is a
texture, and `measured` the coming times between frames. -/
structure Host where
  platform : Platform
  innerSize : Size
  acquires : List (Option SurfaceError)
  measured : List Duration
  recorder : Recorder

/-- The outside before a session starts, for a window of a given size. -/
def Host.initial (platform : Platform) (innerSize : Size) (acquires : List (Option SurfaceError))
    (measured : List Duration) : Host :=
  { platform, innerSize, acquires, measured, recorder := .initial }

/-- A computation within a session. -/
abbrev Session := StateT Host (Except Crash)

namespace Session

/-- Calls on the device are calls of the session. -/
instance : MonadLift Recording Session where
  monadLift m := fun h =>
    let (a, recorder) := m.run h.recorder
    .ok (a, { h with recorder })

/-- Makes a call. -/
def record (c : Call) : Session Unit :=
  Recording.record c

/-- The next answer of the surface: a texture, once the given answers are used up. -/
def acquire : Session (Except SurfaceError Nat) := do
  let host ← get
  match host.acquires with
  | some e :: rest =>
      set { host with acquires := rest }
      record (.acquire (.error e))
      return .error e
  | answers =>
      set { host with acquires := answers.tail }
      let texture ← Recording.fresh
      record (.acquire (.ok texture))
      return .ok texture

/-- The time since the last frame: none at all, once the given times are used up. -/
def measure : Session Duration :=
  modifyGet fun host => (host.measured.headD .zero, { host with measured := host.measured.tail })

end Session

end GroundPlane
