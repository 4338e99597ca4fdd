import GroundPlane.Session.Frame
import GroundPlane.Window.Event

/-!
# The event loop

The loop opens one window when the platform resumes it, passes input and frames to the application,
and closes the window when the user or the application asks for it.
-/

namespace GroundPlane

open Gpu Session

/-- The title and the logical size of a window. -/
structure WindowOptions where
  title : String
  width : Float
  height : Float

/-- A window of a common size. -/
def WindowOptions.standard : WindowOptions :=
  { title := programName, width := 1280.0, height := 720.0 }

/-- What the platform calls the loop with. -/
inductive Callback
  | resumed
  | aboutToWait
  | window (event : WindowEvent)

/-- An application: what it does with a frame. -/
structure App (σ : Type) where
  onFrame : FrameContext → σ → Session (Control × σ)

/-- An open window. -/
structure Entry where
  swapchain : Swapchain
  input : Input Float32
  clock : FrameClock

/-- The state of the loop: the open window, the last failure to open one, and the application. -/
structure Loop (σ : Type) where
  entry : Option Entry
  failure : Option SetupError
  app : σ

namespace Entry

/-- Opens a window. A window that cannot be drawn to is destroyed. -/
def create (window : WindowOptions) (options : Options) : Session (Except SetupError Entry) := do
  record (.createWindow window.title window.width window.height)
  if let some cause := (← get).platform.faults.createWindow then
    return .error (.window cause)
  match ← Swapchain.create options with
  | .ok swapchain => return .ok { swapchain, input := .initial, clock := .standard }
  | .error e =>
      record .dropWindow
      return .error e

/-- Closes the window: the surface goes before the window. -/
def close : Session Unit := do
  record .dropSurface
  record .dropWindow

/-- Follows the window to a new size. -/
def resize (e : Entry) (size : Size) : Session Entry := do
  let swapchain ← e.swapchain.resize size
  record .requestRedraw
  return { e with swapchain }

/-- Notes the input that a window event stands for. -/
def observe (e : Entry) (event : WindowEvent) : Entry :=
  match event.toInput? with
  | some i => { e with input := e.input.apply i }
  | none => e

variable {σ : Type}

/-- Passes a frame to the application. The changes of input are over with it. -/
def redraw (e : Entry) (app : App σ) (state : σ) : Session (Control × σ × Entry) := do
  let some (time, clock) := e.clock.advance? (← measure)
    | throw .clockOverflow
  let ctx : FrameContext := { swapchain := e.swapchain, input := e.input, time }
  record (.frame e.input time ctx.viewport)
  let (control, state) ← app.onFrame ctx state
  return (control, state, { e with clock, input := e.input.nextFrame })

end Entry

namespace Loop

variable {σ : Type}

/-- The loop before its first callback. -/
def initial (app : σ) : Loop σ :=
  { entry := none, failure := none, app }

/-- Opens the window, unless it is open. -/
def resume (l : Loop σ) (window : WindowOptions) (options : Options) : Session (Loop σ) := do
  match l.entry with
  | some _ => return l
  | none =>
      match ← Entry.create window options with
      | .ok entry =>
          record .requestRedraw
          return { l with entry := some entry }
      | .error e =>
          record .exit
          return { l with failure := some e }

/-- Closes the window and ends the loop. -/
def stop (l : Loop σ) : Session (Loop σ) := do
  Entry.close
  record .exit
  return { l with entry := none }

/-- Asks for the next frame before the loop goes to sleep. -/
def aboutToWait (l : Loop σ) : Session (Loop σ) := do
  record .waitForEvents
  if l.entry.isSome then
    record .requestRedraw
  return l

/-- Handles an event of the open window. -/
def windowEvent (l : Loop σ) (app : App σ) (entry : Entry) : WindowEvent → Session (Loop σ)
  | .closeRequested => l.stop
  | .resized size => return { l with entry := some (← entry.resize size) }
  | .scaleFactorChanged _ _ => do
      let size := (← get).innerSize
      return { l with entry := some (← entry.resize size) }
  | .redrawRequested => do
      let (control, state, entry) ← entry.redraw app l.app
      let l := { l with entry := some entry, app := state }
      if control = .exit then l.stop else return l
  | _ => return { l with entry := some entry }

/-- The size of the window changes before the loop hears of it. -/
def noteSize : Callback → Session Unit
  | .window event =>
      match event.newSize? with
      | some size => modify fun host => { host with innerSize := size }
      | none => return
  | _ => return

/-- Handles a callback. Events without an open window are dropped. -/
def step (window : WindowOptions) (options : Options) (app : App σ) (l : Loop σ) (c : Callback) :
    Session (Loop σ) := do
  noteSize c
  match c with
  | .resumed => l.resume window options
  | .aboutToWait => l.aboutToWait
  | .window event =>
      match l.entry with
      | none => return l
      | some entry => l.windowEvent app (entry.observe event) event

end Loop

end GroundPlane
