import GroundPlane.Session.Host

/-!
# Swapchains

The surface of a window as it is configured, with its depth attachment. The depth attachment always
has the configured size; a window without area keeps the configuration that it had.
-/

namespace GroundPlane

open Gpu

/-- A configured surface, its depth attachment and the present size of the window. -/
structure Swapchain where
  config : SurfaceConfig
  depth : DepthBuffer
  size : Size
deriving DecidableEq

/-- Why a window could not be set up. -/
inductive SetupError
  | window (cause : String)
  | zeroSize
  | surface (cause : String)
  | adapter (cause : String)
  | device (cause : String)
  | noFormat
deriving DecidableEq

/-- The chain of reasons, outermost first. -/
def SetupError.causes : SetupError → List String
  | window cause => ["failed to create window", cause]
  | zeroSize => ["GPU initialization failed", "window has zero size"]
  | surface cause => ["GPU initialization failed", "failed to create wgpu surface", cause]
  | adapter cause => ["GPU initialization failed", "failed to find a suitable GPU adapter", cause]
  | device cause => ["GPU initialization failed", "failed to create wgpu device/queue", cause]
  | noFormat => ["GPU initialization failed", "no supported surface formats"]

/-- The text of a failure. -/
def SetupError.message (e : SetupError) : String :=
  ": ".intercalate e.causes

namespace Swapchain

open Session

/-- Makes the depth attachment for a configured size. -/
def createDepth (format : TextureFormat) (size : Size) : Session DepthBuffer :=
  Recording.createDepth (label "depth") (depthTexture format size)

/-- The configuration of a surface of a given size, in the chosen format. -/
def configFor (options : Options) (platform : Platform) (format : TextureFormat) (size : Size) :
    SurfaceConfig where
  usage := .renderAttachment
  format
  size := { width := max 1 size.width, height := max 1 size.height }
  presentMode := options.presentMode
  alphaMode := chooseAlphaMode platform.alphaModes options.alphaMode
  viewFormats := []
  latency := options.latency

/-- Opens a device for a surface and configures it. -/
def openDevice (options : Options) (size : Size) : Session (Except SetupError Swapchain) := do
  let platform := (← get).platform
  record (.requestAdapter .highPerformance true false)
  if let some cause := platform.faults.requestAdapter then
    return .error (.adapter cause)
  record (.requestDevice (label "device") options.features)
  if let some cause := platform.faults.requestDevice then
    return .error (.device cause)
  let some format := chooseFormat? platform.formats options.preferSrgb
    | return .error .noFormat
  let config := configFor options platform format size
  record (.configure config)
  let depth ← createDepth options.depthFormat config.size
  return .ok { config, depth, size }

/-- Makes a surface on the window and configures it. A surface that cannot be used is destroyed. -/
def create (options : Options) : Session (Except SetupError Swapchain) := do
  let host ← get
  let size := host.innerSize
  if !size.isPositive then
    return .error .zeroSize
  record .createInstance
  record .createSurface
  if let some cause := host.platform.faults.createSurface then
    return .error (.surface cause)
  match ← openDevice options size with
  | .ok swapchain => return .ok swapchain
  | .error e =>
      record .dropSurface
      return .error e

/-- Follows the window to a new size. A size without area is only noted. -/
def resize (s : Swapchain) (size : Size) : Session Swapchain := do
  if size.isPositive then
    let config := { s.config with size }
    record (.configure config)
    let depth ← createDepth s.depth.texture.format size
    return { config, depth, size }
  else
    return { s with size }

/-- The drawable area. -/
def viewport (s : Swapchain) : Viewport Float32 :=
  { width := s.size.width.toFloat32, height := s.size.height.toFloat32 }

/-- Configures the surface again after an error that calls for it. -/
def recover (s : Swapchain) (e : SurfaceError) : Session Recovery := do
  if e.recovery = .reconfigure ∧ s.size.isPositive then
    record (.configure s.config)
  return e.recovery

/-- The target of a frame. -/
def target (s : Swapchain) (alignment : UInt64) (texture encoder : Nat) : Target where
  attachments := { surface := s.config.format, depth := s.depth.texture.format }
  viewport := s.viewport
  alignment
  encoder
  surface := texture
  depth := s.depth

end Swapchain

end GroundPlane
