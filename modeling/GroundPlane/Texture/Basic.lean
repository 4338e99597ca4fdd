import GroundPlane.Geometry.Vector

/-!
# Textures

An image of four bytes per texel, row by row from the top, and the lookup of the texel nearest to a
texture coordinate.
-/

namespace GroundPlane

/-- The four channels of a texel. -/
structure Texel where
  r : UInt8
  g : UInt8
  b : UInt8
  a : UInt8
deriving DecidableEq

/-- The channels in order. -/
def Texel.bytes (t : Texel) : List UInt8 :=
  [t.r, t.g, t.b, t.a]

/-- An image. Its bytes are the channels of its texels, row by row. -/
structure Texture where
  width : UInt32
  height : UInt32
  pixels : Array UInt8
deriving DecidableEq

/-- Why an image is refused: it has no texels, or the wrong number of bytes. -/
inductive TextureError
  | zeroSize
  | wrongLength (width height : UInt32) (expected actual : Nat)
deriving DecidableEq

/-- The text of a refusal. -/
def TextureError.message : TextureError → String
  | .zeroSize => "texture has zero size"
  | .wrongLength w h expected actual => s!"texture {w}x{h} needs {expected} bytes, got {actual}"

namespace Texture

/-- The image with given bytes. There is no answer, not even a refusal, if the number of bytes that
it needs does not fit a machine word. -/
def ofPixels? (width height : UInt32) (pixels : Array UInt8) :
    Option (Except TextureError Texture) :=
  let expected := width.toNat * height.toNat * 4
  if width = 0 ∨ height = 0 then some (.error .zeroSize)
  else if UInt64.size ≤ expected then none
  else if pixels.size ≠ expected then some (.error (.wrongLength width height expected pixels.size))
  else some (.ok { width, height, pixels })

/-- One white texel. -/
def white : Texture :=
  { width := 1, height := 1, pixels := #[255, 255, 255, 255] }

/-- The side of the squares of a checkerboard in texels. -/
def checkerCell (size cells : Nat) : Nat :=
  max 1 (size / max 1 cells)

/-- The color in a column and row of a checkerboard, for squares of `cell` texels. -/
def checkerTexel (cell : Nat) (even odd : Texel) (x y : Nat) : Texel :=
  if (x / cell + y / cell) % 2 = 0 then even else odd

/-- The bytes of a square checkerboard, written texel by texel. -/
def checkerPixels (size cell : Nat) (even odd : Texel) : Array UInt8 := Id.run do
  let mut pixels := #[]
  for y in List.range size do
    for x in List.range size do
      pixels := pixels.appendList (checkerTexel cell even odd x y).bytes
  return pixels

/-- The largest number of bytes that can be reserved at once. -/
def byteLimit : Nat := 0x7fffffffffffffff

/-- A square checkerboard of `size` texels with `cells` squares to a side, starting with `even`. The
side of a square is rounded down to whole texels. There is no answer if it has more bytes than can
be reserved. -/
def checkerboard? (size cells : UInt32) (even odd : Texel) : Option Texture :=
  let size := max 1 size
  let n := size.toNat
  if byteLimit < n * n * 4 then none
  else
    some {
      width := size
      height := size
      pixels := checkerPixels n (checkerCell n cells.toNat) even odd }

variable {α : Type} [Scalar α]

/-- The column or row that a coordinate falls on when the image repeats: one of `0` to `n - 1`. -/
def wrap (n : Nat) (coord : α) : Nat :=
  min (Scalar.truncate (Scalar.fract coord * (n : α))) (n - 1)

/-- The texel in a column and row, with channels from 0 to 1. -/
def texel? (t : Texture) (x y : Nat) : Option (Vec4 α) := do
  let i := (y * t.width.toNat + x) * 4
  let r ← t.pixels[i]?
  let g ← t.pixels[i + 1]?
  let b ← t.pixels[i + 2]?
  let a ← t.pixels[i + 3]?
  return (⟨(r.toNat : α), (g.toNat : α), (b.toNat : α), (a.toNat : α)⟩ : Vec4 α) / (255.0 : α)

/-- The texel nearest to a texture coordinate. The image repeats in both directions. -/
def nearest? (t : Texture) (uv : Vec2 α) : Option (Vec4 α) :=
  t.texel? (wrap t.width.toNat uv.x) (wrap t.height.toNat uv.y)

end Texture

end GroundPlane
