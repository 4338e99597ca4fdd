import GroundPlane.Trace
import GroundPlane.Gpu.Layout

/-!
# Drawing the grid

The grid is one rectangle over the screen. It writes its own depth, so it is drawn after whatever is
solid. Pipeline and buffers are made when they are first needed and kept while the attachments stay
the same. A drawing that lacks something after all is left out.
-/

namespace GroundPlane

open Gpu Recording

/-- The device objects that draw the grid, as far as they have been made. The pipeline is for the
attachments of `key`. -/
structure GridRenderer where
  key : Option Attachments
  pipeline : Option Pipeline
  layout : Option GroupLayout
  group : Option BindGroup
  uniforms : Option Buffer
  vertices : Option Buffer
  indices : Option Buffer
deriving DecidableEq

/-- The bytes of an index, lowest first. -/
def indexBytes (i : UInt16) : List UInt8 :=
  [i.toUInt8, (i >>> 8).toUInt8]

namespace GridRenderer

/-- Nothing has been made yet. -/
def initial : GridRenderer where
  key := none
  pipeline := none
  layout := none
  group := none
  uniforms := none
  vertices := none
  indices := none

/-- Sees to the pipeline for given attachments. A new pipeline needs new bindings. -/
def ensurePipeline (r : GridRenderer) (attachments : Attachments) : Recording GridRenderer := do
  if r.key = some attachments ∧ r.pipeline.isSome then
    return r
  else
    let layout ← createLayout (label "grid bgl")
    let pipeline ← createPipeline (label "grid pipeline") layout attachments
    return { r with
      key := some attachments, pipeline := some pipeline, layout := some layout
      group := none, uniforms := none }

/-- Sees to the rectangle over the screen. -/
def ensureQuad (r : GridRenderer) : Recording GridRenderer := do
  if r.vertices.isSome ∧ r.indices.isSome then
    return r
  else
    let corners : List Float32 := screenCorners.flatMap Vec2.toList
    let vertices ← createBufferWith (label "grid quad vbo") (floatWords corners).bytes
    let indices ← createBufferWith (label "grid quad ibo") (screenIndices.flatMap indexBytes)
    return { r with vertices := some vertices, indices := some indices }

/-- Sees to the uniform buffer and its bind group, if there is a layout for it. -/
def ensureBindings (r : GridRenderer) : Recording GridRenderer := do
  if r.group.isSome ∧ r.uniforms.isSome then
    return r
  else
    let some layout := r.layout | return r
    let uniforms ← createBuffer (label "grid ubo") gridBlockSize
    let group ← createBindGroup (label "grid bind group") layout [.buffer uniforms]
    return { r with uniforms := some uniforms, group := some group }

/-- Sees to everything that a drawing needs. -/
def prepare (r : GridRenderer) (attachments : Attachments) : Recording GridRenderer := do
  let r ← r.ensurePipeline attachments
  let r ← r.ensureQuad
  r.ensureBindings

/-- Draws with what is kept, unless something is missing. -/
def draw (r : GridRenderer) (target : Target) (p : Projector Float32) (style : Grid.Style Float32) :
    Recording Unit := do
  let some uniforms := r.uniforms | return
  record (.writeBuffer uniforms 0 (gridBlock p style).bytes)
  let some pipeline := r.pipeline | return
  let some group := r.group | return
  let some vertices := r.vertices | return
  let some indices := r.indices | return
  beginPass (label "grid pass") target
  record (.setPipeline pipeline)
  record (.setBindGroup 0 group [])
  record (.setVertexBuffer 0 vertices)
  record (.setIndexBuffer indices)
  record (.drawIndexed (.ofNat screenIndices.length))

/-- Draws the grid; nothing is done for a viewport that is not valid. -/
def render (r : GridRenderer) (target : Target) (p : Projector Float32)
    (style : Grid.Style Float32) :
    Recording GridRenderer := do
  if target.viewport.isValid then
    let r ← r.prepare target.attachments
    r.draw target p style
    return r
  else
    return r

end GridRenderer

end GroundPlane
