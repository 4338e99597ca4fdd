import GroundPlane.Gpu.Format

/-!
# Surfaces

How the format and the alpha mode of a window's surface are chosen, and what follows from a failure
to get its next texture.
-/

namespace GroundPlane

/-- A size in pixels. -/
structure Size where
  width : UInt32
  height : UInt32
deriving DecidableEq

/-- Neither side is zero. -/
def Size.isPositive (s : Size) : Bool :=
  s.width != 0 && s.height != 0

namespace Gpu

/-- The options of the graphics device. -/
structure Options where
  preferSrgb : Bool
  presentMode : PresentMode
  alphaMode : Option AlphaMode
  depthFormat : TextureFormat
  features : List String
  latency : Nat
deriving DecidableEq

/-- The options of the viewer. -/
def Options.standard : Options where
  preferSrgb := true
  presentMode := .fifo
  alphaMode := none
  depthFormat := .depth32Float
  features := []
  latency := 2

/-- The formats that encode colors as screens expect them, best first. -/
def srgbFormats : List TextureFormat :=
  [.bgra8UnormSrgb, .rgba8UnormSrgb]

/-- The format to draw in, of those that a surface offers: an sRGB format if one is preferred and
offered, else the first. -/
def chooseFormat? (offered : List TextureFormat) (preferSrgb : Bool) : Option TextureFormat :=
  match offered with
  | [] => none
  | first :: _ =>
      if preferSrgb then some ((srgbFormats.find? (· ∈ offered)).getD first) else some first

/-- The alpha mode to use, of those that a surface offers: the requested one if it is offered, else
the first. -/
def chooseAlphaMode (offered : List AlphaMode) (requested : Option AlphaMode) : AlphaMode :=
  match requested.filter (· ∈ offered) with
  | some mode => mode
  | none => offered.headD .auto

/-- The configuration of a surface. -/
structure SurfaceConfig where
  usage : TextureUsage
  format : TextureFormat
  size : Size
  presentMode : PresentMode
  alphaMode : AlphaMode
  viewFormats : List TextureFormat
  latency : Nat
deriving DecidableEq

/-- Why a surface has no next texture. -/
inductive SurfaceError
  | timeout | outdated | lost | outOfMemory | other
deriving DecidableEq

/-- What follows from the lack of a texture. -/
inductive Recovery
  | reconfigure | skipFrame | stop
deriving DecidableEq

/-- A surface that is lost or outdated is configured anew, a lack of memory ends the program, and
anything else costs one frame. -/
def SurfaceError.recovery : SurfaceError → Recovery
  | lost | outdated => .reconfigure
  | outOfMemory => .stop
  | timeout | other => .skipFrame

/-- A texture that frames are drawn to. -/
structure TargetTexture where
  format : TextureFormat
  size : Size
  mips : Nat
  samples : Nat
  usage : TextureUsage
deriving DecidableEq

/-- The depth texture for a surface of a given size; a side of zero is taken as one. -/
def depthTexture (format : TextureFormat) (size : Size) : TargetTexture where
  format
  size := { width := max 1 size.width, height := max 1 size.height }
  mips := 1
  samples := 1
  usage := .renderAttachment

end Gpu

end GroundPlane
