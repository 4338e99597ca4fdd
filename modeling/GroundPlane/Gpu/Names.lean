import GroundPlane.Gpu.Layout
import GroundPlane.Gpu.Surface
import GroundPlane.Named

/-!
# Names of formats and modes

The names under which formats, modes and errors of the graphics device are reported.
-/

namespace GroundPlane

namespace Gpu

instance : Named TextureFormat where
  table := [
    ("R8Unorm", .r8Unorm), ("R8Snorm", .r8Snorm), ("R8Uint", .r8Uint), ("R8Sint", .r8Sint),
    ("R16Uint", .r16Uint), ("R16Sint", .r16Sint), ("R16Unorm", .r16Unorm), ("R16Snorm", .r16Snorm),
    ("R16Float", .r16Float), ("Rg8Unorm", .rg8Unorm), ("Rg8Snorm", .rg8Snorm),
    ("Rg8Uint", .rg8Uint),
    ("Rg8Sint", .rg8Sint), ("R32Uint", .r32Uint), ("R32Sint", .r32Sint), ("R32Float", .r32Float),
    ("Rg16Uint", .rg16Uint), ("Rg16Sint", .rg16Sint), ("Rg16Unorm", .rg16Unorm),
    ("Rg16Snorm", .rg16Snorm), ("Rg16Float", .rg16Float), ("Rgba8Unorm", .rgba8Unorm),
    ("Rgba8UnormSrgb", .rgba8UnormSrgb), ("Rgba8Snorm", .rgba8Snorm), ("Rgba8Uint", .rgba8Uint),
    ("Rgba8Sint", .rgba8Sint), ("Bgra8Unorm", .bgra8Unorm), ("Bgra8UnormSrgb", .bgra8UnormSrgb),
    ("Rgb9e5Ufloat", .rgb9e5Ufloat), ("Rgb10a2Uint", .rgb10a2Uint), ("Rgb10a2Unorm", .rgb10a2Unorm),
    ("Rg11b10Ufloat", .rg11b10Ufloat), ("R64Uint", .r64Uint), ("Rg32Uint", .rg32Uint),
    ("Rg32Sint", .rg32Sint), ("Rg32Float", .rg32Float), ("Rgba16Uint", .rgba16Uint),
    ("Rgba16Sint", .rgba16Sint), ("Rgba16Unorm", .rgba16Unorm), ("Rgba16Snorm", .rgba16Snorm),
    ("Rgba16Float", .rgba16Float), ("Rgba32Uint", .rgba32Uint), ("Rgba32Sint", .rgba32Sint),
    ("Rgba32Float", .rgba32Float), ("Stencil8", .stencil8), ("Depth16Unorm", .depth16Unorm),
    ("Depth24Plus", .depth24Plus), ("Depth24PlusStencil8", .depth24PlusStencil8),
    ("Depth32Float", .depth32Float), ("Depth32FloatStencil8", .depth32FloatStencil8)]

instance : Named AlphaMode where
  table := [
    ("Auto", .auto), ("Opaque", .solid), ("PreMultiplied", .preMultiplied),
    ("PostMultiplied", .postMultiplied), ("Inherit", .inherit)]

instance : Named PresentMode where
  table := [
    ("AutoVsync", .autoVsync), ("AutoNoVsync", .autoNoVsync), ("Fifo", .fifo),
    ("FifoRelaxed", .fifoRelaxed), ("Immediate", .immediate), ("Mailbox", .mailbox)]

instance : Named Comparison where
  table := [
    ("Never", .never), ("Less", .less), ("Equal", .equal), ("LessEqual", .lessEqual),
    ("Greater", .greater), ("NotEqual", .notEqual), ("GreaterEqual", .greaterEqual),
    ("Always", .always)]

instance : Named PowerPreference where
  table := [("LowPower", .lowPower), ("HighPerformance", .highPerformance)]

instance : Named TextureUsage where
  table := [
    ("TextureUsages(RENDER_ATTACHMENT)", .renderAttachment),
    ("TextureUsages(TEXTURE_BINDING)", .sampled), ("TextureUsages(COPY_DST)", .copyTarget)]

instance : Named SurfaceError where
  table := [
    ("Timeout", .timeout), ("Outdated", .outdated), ("Lost", .lost), ("OutOfMemory", .outOfMemory),
    ("Other", .other)]

instance : Named Recovery where
  table := [("Reconfigured", .reconfigure), ("SkipFrame", .skipFrame), ("Fatal", .stop)]

instance : Named VertexFormat where
  table := [("Float32x2", .float32x2), ("Float32x3", .float32x3), ("Float32x4", .float32x4)]

instance : Named StepMode where
  table := [("Vertex", .perVertex), ("Instance", .perInstance)]

instance : Named BlendFactor where
  table := [
    ("Zero", .zero), ("One", .one), ("SrcAlpha", .srcAlpha),
    ("OneMinusSrcAlpha", .oneMinusSrcAlpha)]

instance : Named BlendOperation where
  table := [
    ("Add", .add), ("Subtract", .subtract), ("ReverseSubtract", .reverseSubtract), ("Min", .min),
    ("Max", .max)]

end Gpu

end GroundPlane
