import GroundPlane.Name
import GroundPlane.Gpu.Resource
import GroundPlane.Screen.Color
import GroundPlane.Input.State
import GroundPlane.Clock.Frame
import GroundPlane.Session.Control

/-!
# Traces

The calls that a session makes on its window, its graphics device and its application, in order.
Everything that the program does to the outside is such a call, and every object that the device
makes gets a new number.
-/

namespace GroundPlane

open Gpu

/-- How an attachment begins a pass: with what it holds, or cleared. -/
inductive LoadOp (β : Type)
  | load
  | clear (value : β)
deriving DecidableEq

/-- A pass over the attachments of a frame. -/
structure Pass where
  label : String
  encoder : Nat
  surface : Nat
  color : LoadOp ClearColor
  depth : LoadOp Float32
  depthBuffer : DepthBuffer

/-- A call. -/
inductive Call
  /-- Opens a window of a logical size. -/
  | createWindow (title : String) (width height : Float)
  /-- Lets the event loop sleep until there is something to do. -/
  | waitForEvents
  /-- Asks for a redraw. -/
  | requestRedraw
  /-- Announces that a frame is about to be shown. -/
  | prePresentNotify
  /-- Ends the event loop. -/
  | exit
  /-- The surface is destroyed. -/
  | dropSurface
  /-- The window is destroyed. -/
  | dropWindow
  /-- Opens the graphics system, with all its backends. -/
  | createInstance
  /-- Makes a surface on the window. -/
  | createSurface
  /-- Asks for an adapter, for the surface or not, with software allowed only as a fallback. -/
  | requestAdapter (power : PowerPreference) (forSurface fallback : Bool)
  /-- Opens the device. -/
  | requestDevice (label : String) (features : List String)
  /-- Configures the surface. -/
  | configure (config : SurfaceConfig)
  /-- Asks the surface for its next texture. -/
  | acquire (answer : Except SurfaceError Nat)
  /-- Makes an encoder. -/
  | createEncoder (id : Nat) (label : String)
  /-- Makes a depth attachment. -/
  | createDepth (label : String) (depth : DepthBuffer)
  /-- Makes an image to sample from. -/
  | createImage (image : Image)
  /-- Writes texels to an image. -/
  | writeImage (image : Image) (upload : Upload)
  /-- Makes a sampler. -/
  | createSampler (sampler : Sampler)
  /-- Makes a buffer. -/
  | createBuffer (buffer : Buffer)
  /-- Writes bytes to a buffer. -/
  | writeBuffer (buffer : Buffer) (offset : Nat) (bytes : List UInt8)
  /-- Makes the layout of a bind group. -/
  | createLayout (layout : GroupLayout)
  /-- Makes a pipeline. -/
  | createPipeline (pipeline : Pipeline)
  /-- Makes a bind group. -/
  | createBindGroup (group : BindGroup)
  /-- Begins a pass. -/
  | beginPass (pass : Pass)
  /-- Chooses the pipeline of the draws that follow. -/
  | setPipeline (pipeline : Pipeline)
  /-- Chooses their resources, with offsets into the buffers. -/
  | setBindGroup (index : Nat) (group : BindGroup) (offsets : List UInt32)
  /-- Chooses their vertices. -/
  | setVertexBuffer (slot : Nat) (buffer : Buffer)
  /-- Chooses their indices, of 16 bits. -/
  | setIndexBuffer (buffer : Buffer)
  /-- Draws one instance of the triangles of the first indices. -/
  | drawIndexed (count : UInt32)
  /-- Submits what an encoder has recorded. -/
  | submit (encoder : Nat)
  /-- Shows a surface texture. -/
  | present (texture : Nat)
  /-- Hands a frame to the application. -/
  | frame (input : Input Float32) (time : FrameTime) (viewport : Viewport Float32)
  /-- Hands the target of a frame to the application. -/
  | draw (target : Target)
  /-- The drawing of a frame is over. -/
  | rendered (control : Control)

/-- The calls made so far, and the number of the next object. -/
structure Recorder where
  next : Nat
  calls : Array Call

/-- No call has been made. -/
def Recorder.initial : Recorder :=
  { next := 0, calls := #[] }

/-- A computation that makes calls. -/
abbrev Recording := StateM Recorder

namespace Recording

/-- Makes a call. -/
def record (c : Call) : Recording Unit :=
  modify fun r => { r with calls := r.calls.push c }

/-- The number of a new object. -/
def fresh : Recording Nat :=
  modifyGet fun r => (r.next, { r with next := r.next + 1 })

/-- Makes a buffer without contents. -/
def createBuffer (label : String) (size : Nat) : Recording Buffer := do
  let b : Buffer := { id := ← fresh, label, size, contents := none }
  record (.createBuffer b)
  return b

/-- Makes a buffer with contents. Its size is rounded up to a multiple of four bytes. -/
def createBufferWith (label : String) (contents : List UInt8) : Recording Buffer := do
  let b : Buffer :=
    { id := ← fresh, label, size := (contents.length + 3) / 4 * 4, contents := some contents }
  record (.createBuffer b)
  return b

/-- Makes the layout of a bind group. -/
def createLayout (label : String) : Recording GroupLayout := do
  let l : GroupLayout := { id := ← fresh, label }
  record (.createLayout l)
  return l

/-- Makes a pipeline that reads resources of a layout. -/
def createPipeline (label : String) (layout : GroupLayout) (attachments : Attachments) :
    Recording Pipeline := do
  let p : Pipeline := { id := ← fresh, label, attachments, layout }
  record (.createPipeline p)
  return p

/-- Makes a bind group for a layout. -/
def createBindGroup (label : String) (layout : GroupLayout) (bindings : List Binding) :
    Recording BindGroup := do
  let g : BindGroup := { id := ← fresh, label, layout, bindings }
  record (.createBindGroup g)
  return g

/-- Makes a sampler. -/
def createSampler : Recording Sampler := do
  let s : Sampler := { id := ← fresh }
  record (.createSampler s)
  return s

/-- Makes an image of the size of a texture and writes the texture to it. -/
def uploadImage (label : String) (format : TextureFormat) (source : Texture) : Recording Image := do
  let i : Image :=
    { id := ← fresh, label, size := source.extent, mips := 1, samples := 1, format,
      usages := [.sampled, .copyTarget] }
  record (.createImage i)
  record (.writeImage i source.upload)
  return i

/-- Makes a depth attachment. -/
def createDepth (label : String) (texture : TargetTexture) : Recording DepthBuffer := do
  let d : DepthBuffer := { id := ← fresh, texture }
  record (.createDepth label d)
  return d

/-- Begins a pass that keeps what earlier passes have drawn. -/
def beginPass (label : String) (target : Target) : Recording Unit :=
  record (.beginPass {
    label
    encoder := target.encoder
    surface := target.surface
    color := .load
    depth := .load
    depthBuffer := target.depth })

end Recording

end GroundPlane
