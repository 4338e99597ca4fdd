import GroundPlane.Grid.Style
import GroundPlane.Lighting.Stage
import GroundPlane.Scalar.Word

/-!
# Uniform blocks

The inputs of the shading stages as the words of a uniform block, in the places where the shaders
read them, and the padding of blocks in a shared buffer. Inputs are given by their bits, of which a
block holds every one: a NaN keeps its payload.
-/

namespace GroundPlane.Gpu

/-- A block of 32-bit words. -/
abbrev Block := List UInt32

/-- The bytes of a word, lowest first. -/
def wordBytes (w : UInt32) : List UInt8 :=
  [w.toUInt8, (w >>> 8).toUInt8, (w >>> 16).toUInt8, (w >>> 24).toUInt8]

/-- The bytes of a block. -/
def Block.bytes (b : Block) : List UInt8 :=
  b.flatMap wordBytes

/-- The block with the given bytes; bytes after the last full word are dropped. -/
def Block.ofBytes : List UInt8 → Block
  | a :: b :: c :: d :: rest =>
      (a.toUInt32 ||| b.toUInt32 <<< 8 ||| c.toUInt32 <<< 16 ||| d.toUInt32 <<< 24) :: ofBytes rest
  | _ => []

/-- The bits of a list of numbers. -/
def floatWords (xs : List Float32) : Block :=
  xs.map Float32.toBits

/-- The bits of the inverse of a matrix that is given by its bits. -/
def inverseBits (m : Mat4 UInt32) : Mat4 UInt32 :=
  (m.map Float32.ofBits).inverse.map Float32.toBits

/-- The block of the grid for inputs given by their bits: view, projection and their inverses, the
line color, both scales, the clip distances, axis band and fade offset. -/
def gridWords (p : Projector UInt32) (style : Grid.Style UInt32) : Block :=
  p.view.toList ++ p.projection.toList ++
  (inverseBits p.view).toList ++ (inverseBits p.projection).toList ++
  (style.lineColor.extend (1 : Float32).toBits).toList ++
  [style.fine, style.coarse, p.near, p.far, style.axisBand, style.fadeOffset, 0, 0]

/-- The block of the grid. -/
def gridBlock (p : Projector Float32) (style : Grid.Style Float32) : Block :=
  gridWords (p.map Float32.toBits) (style.map Float32.toBits)

/-- The block of a lit object for inputs given by their bits: model, view, projection, the light,
and the code of the normal source. -/
def litWords (p : Projector UInt32) (object : Lighting.Object UInt32) : Block :=
  object.model.toList ++ p.view.toList ++ p.projection.toList ++
  (object.light.extend (1 : Float32).toBits).toList ++
  [object.normals.code, 0, 0, 0]

/-- The block of a lit object. -/
def litBlock (p : Projector Float32) (object : Lighting.Object Float32) : Block :=
  litWords (p.map Float32.toBits) (object.map Float32.toBits)

/-- The size of the grid's block in bytes. -/
def gridBlockSize : Nat := 304

/-- The size of a lit object's block in bytes. -/
def litBlockSize : Nat := 224

/-- The least multiple of `alignment`, a power of two, that is not below `size`. Words wrap
around. -/
def alignTo (size alignment : UInt64) : UInt64 :=
  (size + alignment - 1) &&& ~~~(alignment - 1)

/-- `alignTo` with checks: there is no answer if `alignment` is not a power of two, or if the sum of
both leaves the range of words. -/
def alignTo? (size alignment : UInt64) : Option UInt64 := do
  guard alignment.toNat.isPowerOfTwo
  let _ ← addWords? size alignment
  return alignTo size alignment

end GroundPlane.Gpu
