import GroundPlane.Session.Swapchain

/-!
# Frames

One frame of a session: the attachments are cleared, the application draws, and the result is shown.
-/

namespace GroundPlane

open Gpu Session

/-- What an application gets to know about a frame. -/
structure FrameContext where
  swapchain : Swapchain
  input : Input Float32
  time : FrameTime

namespace FrameContext

/-- The drawable area. -/
def viewport (ctx : FrameContext) : Viewport Float32 :=
  ctx.swapchain.viewport

/-- The pass that clears the color attachment, and the depth attachment to the far plane. -/
def clearPass (clear : Color) (target : Target) : Pass where
  label := label "clear"
  encoder := target.encoder
  surface := target.surface
  color := .clear clear.toClear
  depth := .clear 1.0
  depthBuffer := target.depth

variable {σ : Type}

/-- Draws to a surface texture and shows it. -/
def paint (ctx : FrameContext) (clear : Color) (draw : Target → σ → Recording σ) (app : σ)
    (texture : Nat) : Session σ := do
  let encoder ← Recording.fresh
  record (.createEncoder encoder (label "frame encoder"))
  let target := ctx.swapchain.target (← get).platform.alignment texture encoder
  record (.beginPass (clearPass clear target))
  record (.draw target)
  let app ← draw target app
  record .prePresentNotify
  record (.submit encoder)
  record (.present texture)
  return app

/-- Clears, draws and shows a frame. Nothing is drawn if the window has no area or its surface has
no texture; a lack of memory asks to exit. -/
def attempt (ctx : FrameContext) (clear : Color) (draw : Target → σ → Recording σ) (app : σ) :
    Session (Control × σ) := do
  if !ctx.viewport.isValid then
    return (.proceed, app)
  match ← acquire with
  | .error e =>
      let recovery ← ctx.swapchain.recover e
      return (if recovery = .stop then .exit else .proceed, app)
  | .ok texture => return (.proceed, ← ctx.paint clear draw app texture)

/-- Draws a frame as `attempt` does, and notes what it asks for. -/
def render (ctx : FrameContext) (clear : Color) (draw : Target → σ → Recording σ) (app : σ) :
    Session (Control × σ) := do
  let (control, app) ← ctx.attempt clear draw app
  record (.rendered control)
  return (control, app)

end FrameContext

end GroundPlane
