import GroundPlane.Draw.Grid

/-!
# Drawing lit meshes

One mesh and one texture, drawn once per object. The uniform blocks of all objects share a buffer,
at offsets that are multiples of a stride. Device objects are made when they are first needed and
kept while they fit. A drawing that lacks something after all is left out.
-/

namespace GroundPlane

open Gpu Recording

/-- A mesh, its texture, and the device objects that draw them, as far as they have been made. The
texture is `dirty` while it has not been uploaded since it was set. The pipeline is for the
attachments of `key`, the shared buffer `uniforms` has room for `capacity` blocks that are `stride`
bytes apart, and the buffers of the mesh hold `indexCount` indices. -/
structure LitRenderer where
  mesh : Mesh Float32
  texture : Texture
  dirty : Bool
  key : Option Attachments
  pipeline : Option Pipeline
  layout : Option GroupLayout
  group : Option BindGroup
  uniforms : Option Buffer
  capacity : Nat
  stride : Nat
  vertices : Option Buffer
  indices : Option Buffer
  indexCount : UInt32
  image : Option Image
  sampler : Option Sampler
deriving DecidableEq

/-- The bytes of a vertex, as `Gpu.meshLayout` lays them out. -/
def Vertex.bytes (v : Vertex Float32) : List UInt8 :=
  Block.bytes (floatWords (v.position.toList ++ v.color.toList ++ v.uv.toList ++ v.normal.toList))

/-- A block filled up with zeros to a stride in bytes. -/
def Gpu.Block.padded (b : Block) (stride : Nat) : List UInt8 :=
  b.bytes ++ List.replicate (stride - b.bytes.length) 0

/-- The blocks of all objects, a stride apart. -/
def objectBytes (p : Projector Float32) (objects : List (Lighting.Object Float32)) (stride : Nat) :
    List UInt8 :=
  objects.flatMap fun o => (litBlock p o).padded stride

namespace LitRenderer

/-- Nothing has been made yet. -/
def ofMesh (mesh : Mesh Float32) (texture : Texture) : LitRenderer where
  mesh
  texture
  dirty := true
  key := none
  pipeline := none
  layout := none
  group := none
  uniforms := none
  capacity := 0
  stride := 0
  vertices := none
  indices := none
  indexCount := 0
  image := none
  sampler := none

/-- Replaces the texture, from the next drawing on. -/
def setTexture (r : LitRenderer) (texture : Texture) : LitRenderer :=
  { r with texture, dirty := true }

/-- Sees to the pipeline for given attachments. A new pipeline needs a new bind group. -/
def ensurePipeline (r : LitRenderer) (attachments : Attachments) : Recording LitRenderer := do
  if r.key = some attachments ∧ r.pipeline.isSome then
    return r
  else
    let layout ← createLayout (label "lit bgl")
    let pipeline ← createPipeline (label "lit pipeline") layout attachments
    return { r with
      key := some attachments, pipeline := some pipeline, layout := some layout, group := none }

/-- Sees to the buffers of the mesh. The number of indices is taken as a 32-bit word. -/
def ensureMesh (r : LitRenderer) : Recording LitRenderer := do
  if r.vertices.isSome ∧ r.indices.isSome then
    return r
  else
    let vertices ← createBufferWith (label "lit vbo") (r.mesh.vertices.flatMap Vertex.bytes)
    let indices ← createBufferWith (label "lit ibo") (r.mesh.indices.flatMap indexBytes)
    return { r with
      vertices := some vertices, indices := some indices
      indexCount := .ofNat r.mesh.indices.length }

/-- Sees to the sampler. -/
def ensureSampler (r : LitRenderer) : Recording LitRenderer := do
  if r.sampler.isSome then
    return r
  else
    let sampler ← createSampler
    return { r with sampler := some sampler }

/-- Sees to the texture on the device: it is uploaded if it is dirty. A new image needs a new bind
group. -/
def ensureImage (r : LitRenderer) : Recording LitRenderer := do
  if !r.dirty ∧ r.image.isSome then
    return r
  else
    let image ← uploadImage (label "lit texture") .rgba8UnormSrgb r.texture
    return { r with image := some image, dirty := false, group := none }

/-- The distance of blocks in the shared buffer. -/
def objectStride (alignment : UInt64) : Nat :=
  (alignTo (.ofNat litBlockSize) alignment).toNat

/-- The least power of two that is not below a number. -/
def powerOfTwoFrom (n : Nat) : Nat :=
  if n ≤ 1 then 1 else 1 <<< ((n - 1).log2 + 1)

/-- The number of blocks that a buffer for `required` objects has room for. -/
def objectCapacity (required : Nat) : Nat :=
  max 8 (powerOfTwoFrom required)

/-- Sees to a shared buffer with room for so many objects. A new one needs a new bind group. -/
def ensureObjects (r : LitRenderer) (alignment : UInt64) (required : Nat) : Recording LitRenderer :=
  do
  if required ≤ r.capacity ∧ r.uniforms.isSome then
    return r
  else
    let stride := objectStride alignment
    let capacity := objectCapacity required
    let uniforms ← createBuffer (label "lit object ubo") (stride * capacity)
    return { r with uniforms := some uniforms, stride, capacity, group := none }

/-- Sees to the bind group of what is kept, if all that it joins is there. -/
def ensureGroup (r : LitRenderer) : Recording LitRenderer := do
  if r.group.isSome then
    return r
  else
    let some layout := r.layout | return r
    let some uniforms := r.uniforms | return r
    let some image := r.image | return r
    let some sampler := r.sampler | return r
    let group ← createBindGroup (label "lit bind group") layout
      [.buffer uniforms, .image image, .sampler sampler]
    return { r with group := some group }

/-- Sees to everything that a drawing of so many objects needs. -/
def prepare (r : LitRenderer) (target : Target) (required : Nat) : Recording LitRenderer := do
  let r ← r.ensurePipeline target.attachments
  let r ← r.ensureMesh
  let r ← r.ensureSampler
  let r ← r.ensureImage
  let r ← r.ensureObjects target.alignment required
  r.ensureGroup

/-- Draws the mesh with the block at each of the given places of the shared buffer. -/
def drawObjects (group : BindGroup) (stride : Nat) (count : UInt32) : List Nat → Recording Unit
  | [] => return
  | i :: rest => do
      record (.setBindGroup 0 group [.ofNat (i * stride)])
      record (.drawIndexed count)
      drawObjects group stride count rest

/-- Draws the mesh once per object with what is kept, unless something is missing. -/
def draw (r : LitRenderer) (target : Target) (p : Projector Float32)
    (objects : List (Lighting.Object Float32)) : Recording Unit := do
  let some uniforms := r.uniforms | return
  record (.writeBuffer uniforms 0 (objectBytes p objects r.stride))
  let some pipeline := r.pipeline | return
  let some group := r.group | return
  let some vertices := r.vertices | return
  let some indices := r.indices | return
  beginPass (label "lit pass") target
  record (.setPipeline pipeline)
  record (.setVertexBuffer 0 vertices)
  record (.setIndexBuffer indices)
  drawObjects group r.stride r.indexCount (List.range objects.length)

/-- Draws the mesh once per object; nothing is done if there is nothing to draw. -/
def render (r : LitRenderer) (target : Target) (p : Projector Float32)
    (objects : List (Lighting.Object Float32)) : Recording LitRenderer := do
  if objects.isEmpty || r.mesh.isEmpty then
    return r
  else
    let r ← r.prepare target objects.length
    r.draw target p objects
    return r

end LitRenderer

end GroundPlane
