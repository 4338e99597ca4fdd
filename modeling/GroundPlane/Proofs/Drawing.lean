import Mathlib
import GroundPlane.Session.Playback
import GroundPlane.Viewer.App
import GroundPlane.Proofs.Passes

/-!
# Drawings keep to their target

What an application draws within a frame leaves the surface alone, and all its passes go to the
attachments of the frame's target. This holds of both renderers, and so of the playback and of the
viewer.
-/

namespace GroundPlane

open Gpu Recording

/-- The call leaves the surface alone, and a pass that it begins goes to the attachments of the
target. -/
def Call.Within (target : Target) : Call → Prop
  | .configure _ | .acquire _ => False
  | .beginPass pass =>
      pass.encoder = target.encoder ∧ pass.surface = target.surface ∧
        pass.depthBuffer = target.depth
  | _ => True

/-- A drawing within a frame. -/
structure Drawing (σ : Type) where
  draw : Target → σ → Recording σ
  within : ∀ target app, (draw target app).Only (Call.Within target)

/-- Every call that can be part of a pass keeps to the target of the pass. -/
theorem Call.IsOfPass.within {label : String} {target : Target} {c : Call}
    (part : c.IsOfPass label target) : c.Within target := by
  cases part with
  | making making => cases c <;> cases making <;> trivial
  | write => trivial
  | pass => exact ⟨rfl, rfl, rfl⟩
  | command command => cases c <;> cases command <;> trivial

/-- What the playback draws. -/
def Playback.drawing (shot : Shot) : Drawing Playback where
  draw := draw shot
  within target p := by
    unfold draw
    refine ((p.lit.render_only _ _ _).mono fun _ => Call.IsOfPass.within).bind fun lit => ?_
    split
    · exact only_pure _
    · exact ((p.grid.render_only _ _ _).mono fun _ => Call.IsOfPass.within).bind fun _ =>
        only_pure _

theorem Viewer.draw_only {P : Call → Prop} (p : Projector Float32) (target : Target) (v : Viewer)
    (holds : ∀ label c, c.IsOfPass label target → P c) : (draw p target v).Only P := by
  unfold draw
  refine ((v.lit.render_only target p v.objects).mono (holds _)).bind fun lit => ?_
  split
  · exact ((v.grid.render_only target p _).mono (holds _)).bind fun _ => only_pure _
  · exact only_pure _

/-- What the viewer draws. -/
def Viewer.drawing (p : Projector Float32) : Drawing Viewer where
  draw := draw p
  within target v := v.draw_only p target fun _ _ => Call.IsOfPass.within

end GroundPlane
