import GroundPlane.Session.Run
import GroundPlane.Draw.Lit

/-!
# Playback

An application that follows a list of instructions, one per frame, and then does nothing.
-/

namespace GroundPlane

open Gpu

/-- What to draw in a frame: lit objects, and the grid if a style is given. -/
structure Shot where
  clear : Color
  projector : Projector Float32
  objects : List (Lighting.Object Float32)
  grid : Option (Grid.Style Float32)

/-- The instruction for a frame. -/
structure Cue where
  shot : Option Shot
  exit : Bool

/-- The instructions that are left, with the renderers. -/
structure Playback where
  cues : List Cue
  lit : LitRenderer
  grid : GridRenderer

namespace Playback

/-- A playback that shows a white cube with a texture. -/
def ofCues (cues : List Cue) (texture : Texture) : Playback :=
  { cues, lit := .ofMesh (.cube 1 ⟨1, 1, 1, 1⟩) texture, grid := .initial }

/-- Draws a shot. -/
def draw (shot : Shot) (target : Target) (p : Playback) : Recording Playback := do
  let lit ← p.lit.render target shot.projector shot.objects
  match shot.grid with
  | none => return { p with lit }
  | some style =>
      let grid ← p.grid.render target shot.projector style
      return { p with lit, grid }

/-- Follows the next instruction. -/
def onFrame (ctx : FrameContext) (p : Playback) : Session (Control × Playback) := do
  match p.cues with
  | [] => return (.proceed, p)
  | cue :: cues =>
      let p := { p with cues }
      let (control, p) ←
        match cue.shot with
        | none => pure (Control.proceed, p)
        | some shot => ctx.render shot.clear (draw shot) p
      return (if cue.exit then .exit else control, p)

/-- The application. -/
def app : App Playback :=
  { onFrame }

end Playback

end GroundPlane
