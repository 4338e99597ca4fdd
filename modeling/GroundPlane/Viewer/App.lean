import GroundPlane.Viewer.Controls
import GroundPlane.Viewer.Logging
import GroundPlane.Session.Run
import GroundPlane.Draw.Lit

/-!
# The viewer

Three cubes over the ground grid, two of them turning, under the user's controls.
-/

namespace GroundPlane

open Gpu

/-- What the viewer starts with. -/
structure ViewerOptions where
  window : WindowOptions
  gpu : Options
  logFilter : Option String
  clear : Color
  grid : Grid.Style Float32
  normals : NormalSource
  light : Vec3 Float32
  camera : OrbitCamera Float32

/-- The viewer as it comes: a grey background and the light at the origin. -/
def ViewerOptions.standard : ViewerOptions where
  window := { WindowOptions.standard with title := programName ++ " viewer" }
  gpu := .standard
  logFilter := none
  clear := ⟨0.62, 0.64, 0.68, 1.0⟩
  grid := .standard
  normals := .derivative
  light := 0
  camera := .standard

/-- Where a cube stands, and how fast it turns in radians per second. -/
structure Placement where
  position : Vec3 Float32
  spin : Float32

/-- The viewer's cubes. -/
def placements : List Placement :=
  [{ position := ⟨1.5, 0.5, 0.0⟩, spin := 0.0 },
   { position := ⟨-1.5, 0.5, -1.5⟩, spin := 0.4 },
   { position := ⟨0.0, 1.25, -4.0⟩, spin := -0.25 }]

/-- Where the mesh of a cube stands after so many seconds. -/
def Placement.model (p : Placement) (elapsed : Float32) : Mat4 Float32 :=
  .shift p.position * .rotationY (p.spin * elapsed)

/-- The texture of the cubes: light and dark squares. -/
def checker : Texture :=
  (Texture.checkerboard? 256 8 ⟨235, 235, 235, 255⟩ ⟨70, 90, 120, 255⟩).get rfl

/-- The viewer: its options, its controls, the objects of the last frame, and the renderers.
`textured` says which texture the mesh has now. -/
structure Viewer where
  options : ViewerOptions
  controls : Controls Float32
  objects : List (Lighting.Object Float32)
  textured : Bool
  lit : LitRenderer
  grid : GridRenderer

namespace Viewer

/-- The viewer before its first frame. -/
def ofOptions (options : ViewerOptions) : Viewer where
  options
  controls := .ofHome options.camera options.normals
  objects := []
  textured := true
  lit := .ofMesh (.cube 1.0 ⟨1.0, 0.85, 0.7, 1.0⟩) checker
  grid := .initial

/-- The texture of the cubes, with and without squares. -/
def texture (textured : Bool) : Texture :=
  if textured then checker else .white

/-- Gives the mesh the texture that the controls ask for. -/
def updateTexture (v : Viewer) : Viewer :=
  if v.controls.textured = v.textured then v
  else
    { v with
      textured := v.controls.textured
      lit := v.lit.setTexture (texture v.controls.textured) }

/-- The cubes after so many seconds. -/
def updateObjects (v : Viewer) (elapsed : Float32) : Viewer :=
  { v with
    objects := placements.map fun p =>
      { model := p.model elapsed, light := v.options.light, normals := v.controls.normals } }

/-- The viewer after the input of a frame, and what the frame asks for. Unless it goes on, only the
controls have changed. -/
def update (v : Viewer) (input : Input Float32) (time : FrameTime) :
    Viewer × Except Crash Control :=
  let (controls, outcome) := v.controls.apply input
  let v := { v with controls }
  match outcome with
  | .ok .proceed => (v.updateTexture.updateObjects time.elapsed, outcome)
  | _ => (v, outcome)

/-- Draws the cubes, and then the grid if it is shown. -/
def draw (p : Projector Float32) (target : Target) (v : Viewer) : Recording Viewer := do
  let lit ← v.lit.render target p v.objects
  if v.controls.showGrid then
    let grid ← v.grid.render target p v.options.grid
    return { v with lit, grid }
  else
    return { v with lit }

/-- The viewer's frame. -/
def onFrame (ctx : FrameContext) (v : Viewer) : Session (Control × Viewer) := do
  let (v, outcome) := v.update ctx.input ctx.time
  match outcome with
  | .error crash => throw crash
  | .ok .exit => return (.exit, v)
  | .ok .proceed =>
      ctx.render v.options.clear (draw (v.controls.camera.camera.projector ctx.viewport)) v

/-- The application. -/
def app : App Viewer :=
  { onFrame }

/-- Runs the viewer. -/
def run (options : ViewerOptions) (callbacks : List Callback) : Session Report :=
  app.run (ofOptions options) options.window options.gpu callbacks

end Viewer

end GroundPlane
