/-!
# Formats and modes of the graphics device
-/

namespace GroundPlane.Gpu

/-- The format of a texture, uncompressed or for depth and stencil. -/
inductive TextureFormat
  | r8Unorm | r8Snorm | r8Uint | r8Sint
  | r16Uint | r16Sint | r16Unorm | r16Snorm | r16Float
  | rg8Unorm | rg8Snorm | rg8Uint | rg8Sint
  | r32Uint | r32Sint | r32Float
  | rg16Uint | rg16Sint | rg16Unorm | rg16Snorm | rg16Float
  | rgba8Unorm | rgba8UnormSrgb | rgba8Snorm | rgba8Uint | rgba8Sint
  | bgra8Unorm | bgra8UnormSrgb
  | rgb9e5Ufloat | rgb10a2Uint | rgb10a2Unorm | rg11b10Ufloat
  | r64Uint | rg32Uint | rg32Sint | rg32Float
  | rgba16Uint | rgba16Sint | rgba16Unorm | rgba16Snorm | rgba16Float
  | rgba32Uint | rgba32Sint | rgba32Float
  | stencil8 | depth16Unorm | depth24Plus | depth24PlusStencil8 | depth32Float
  | depth32FloatStencil8
deriving DecidableEq

/-- How a surface is blended with what lies behind the window. -/
inductive AlphaMode
  | auto | solid | preMultiplied | postMultiplied | inherit
deriving DecidableEq

/-- How finished frames reach the screen. -/
inductive PresentMode
  | autoVsync | autoNoVsync | fifo | fifoRelaxed | immediate | mailbox
deriving DecidableEq

/-- A comparison of a fragment's depth with the stored depth. -/
inductive Comparison
  | never | less | equal | lessEqual | greater | notEqual | greaterEqual | always
deriving DecidableEq

/-- The preference between power use and speed. -/
inductive PowerPreference
  | lowPower | highPerformance
deriving DecidableEq

/-- What a texture is used for. -/
inductive TextureUsage
  | renderAttachment | sampled | copyTarget
deriving DecidableEq

/-- The formats of the attachments that a pipeline draws to. -/
structure Attachments where
  surface : TextureFormat
  depth : TextureFormat
deriving DecidableEq

end GroundPlane.Gpu
