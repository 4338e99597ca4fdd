import GroundPlane.Gpu.Block
import GroundPlane.Gpu.Surface
import GroundPlane.Texture.Basic
import GroundPlane.Screen.Viewport

/-!
# Device objects

Objects made by the graphics device, each with the number that tells it from all others and with
what it was made from.
-/

namespace GroundPlane.Gpu

/-- A buffer. Its contents are known if they were given when it was made. -/
structure Buffer where
  id : Nat
  label : String
  size : Nat
  contents : Option (List UInt8)
deriving DecidableEq

/-- The size of an image on the device: columns, rows and layers. -/
structure Extent where
  width : UInt32
  height : UInt32
  layers : UInt32
deriving DecidableEq

/-- An image on the device to sample from. -/
structure Image where
  id : Nat
  label : String
  size : Extent
  mips : Nat
  samples : Nat
  format : TextureFormat
  usages : List TextureUsage
deriving DecidableEq

/-- What is written to an image: the bytes, where the first texel stands in them, how long a row is
in bytes and a layer in rows, and how much of the image is written. -/
structure Upload where
  bytes : Array UInt8
  offset : Nat
  bytesPerRow : UInt32
  rowsPerLayer : UInt32
  size : Extent
deriving DecidableEq

/-- How an image is sampled. -/
structure Sampler where
  id : Nat
deriving DecidableEq

/-- The layout of the resources that a draw reads. -/
structure GroupLayout where
  id : Nat
  label : String
deriving DecidableEq

/-- A pipeline, with the attachments that it draws to and the layout of the resources that it
reads. -/
structure Pipeline where
  id : Nat
  label : String
  attachments : Attachments
  layout : GroupLayout
deriving DecidableEq

/-- A resource that a shader reads. -/
inductive Binding
  | buffer (buffer : Buffer)
  | image (image : Image)
  | sampler (sampler : Sampler)
deriving DecidableEq

/-- The resources that a draw reads, for a layout. -/
structure BindGroup where
  id : Nat
  label : String
  layout : GroupLayout
  bindings : List Binding
deriving DecidableEq

/-- The depth attachment of a surface. -/
structure DepthBuffer where
  id : Nat
  texture : TargetTexture
deriving DecidableEq

/-- What a frame is drawn to: the attachments' formats, the drawable area, the alignment of offsets
into uniform buffers, and the encoder, surface texture and depth attachment of the frame. -/
structure Target where
  attachments : Attachments
  viewport : Viewport Float32
  alignment : UInt64
  encoder : Nat
  surface : Nat
  depth : DepthBuffer
deriving DecidableEq

end GroundPlane.Gpu

namespace GroundPlane.Texture

open Gpu

/-- The size of a texture on the device. -/
def extent (t : Texture) : Extent :=
  { width := t.width, height := t.height, layers := 1 }

/-- All texels of a texture. The length of a row in bytes is a 32-bit word, which wraps around from
`2 ^ 30` texels on; no device takes images so wide. -/
def upload (t : Texture) : Upload where
  bytes := t.pixels
  offset := 0
  bytesPerRow := t.width * 4
  rowsPerLayer := t.height
  size := t.extent

end GroundPlane.Texture
