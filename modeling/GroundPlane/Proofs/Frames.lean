import Mathlib
import GroundPlane.Session.Frame
import GroundPlane.Proofs.Session
import GroundPlane.Proofs.SinglePrecision

/-!
# What a frame does

A frame does nothing if the window has no area, and else asks the surface for a texture. Either the
surface has none, and is configured again if that may help, or the frame is drawn and shown
(`FrameContext.render_attempts`).
-/

namespace GroundPlane

open Gpu Session

variable {σ : Type}

/-- The calls of a frame that is drawn with `cs` and shown. -/
def shownCalls (clear : Color) (target : Target) (cs : List Call) : List Call :=
  .acquire (.ok target.surface) :: .createEncoder target.encoder (label "frame encoder") ::
    .beginPass (FrameContext.clearPass clear target) :: .draw target ::
    (cs ++ [.prePresentNotify, .submit target.encoder, .present target.surface])

/-- The calls of a frame for which the surface has no texture. -/
def Swapchain.failedCalls (s : Swapchain) (e : SurfaceError) : List Call :=
  .acquire (.error e) :: if e = .lost ∨ e = .outdated then [.configure s.config] else []

/-- What a frame asks for if its surface has no texture. -/
def Gpu.SurfaceError.control (e : SurfaceError) : Control :=
  if e = .outOfMemory then .exit else .proceed

/-- The application `app` draws with calls that `Q` allows, whatever the target is. -/
def Draws (draw : Target → σ → Recording σ) (app : σ) (Q : Target → σ → List Call → Prop) : Prop :=
  ∀ target h, ∃ app' h' cs, Performs (liftM (draw target app) : Session σ) h app' h' cs ∧
    Q target app' cs

namespace Swapchain

theorem viewport_isValid (s : Swapchain) : s.viewport.isValid = s.size.isPositive :=
  s.size.viewport_isValid

/-- A surface that is lost or outdated is configured as it was, if the window has area. -/
theorem recover_calls (s : Swapchain) (e : SurfaceError) (h : Host) :
    ∃ h', Performs (s.recover e) h e.recovery h'
      (if e.recovery = .reconfigure ∧ s.size.isPositive then [.configure s.config] else []) := by
  unfold recover
  split
  · exact ⟨_, (performs_record (.configure s.config) h).bind (performs_pure _ _)⟩
  · exact ⟨h, performs_pure _ h⟩

end Swapchain

namespace FrameContext

/-- What a frame can do, with what it asks for and the application that it leaves. -/
inductive Attempts (ctx : FrameContext) (clear : Color) (app : σ)
    (Q : Target → σ → List Call → Prop) :
    Control → σ → List Call → Prop
  | minimised : ctx.swapchain.size.isPositive = false → ctx.Attempts clear app Q .proceed app []
  | failed {e : SurfaceError} : ctx.swapchain.size.isPositive →
      ctx.Attempts clear app Q e.control app (ctx.swapchain.failedCalls e)
  | shown {alignment : UInt64} {texture encoder : Nat} {app' : σ} {cs : List Call} :
      ctx.swapchain.size.isPositive → Q (ctx.swapchain.target alignment texture encoder) app' cs →
      ctx.Attempts clear app Q .proceed app'
        (shownCalls clear (ctx.swapchain.target alignment texture encoder) cs)

variable {draw : Target → σ → Recording σ} {app : σ} {Q : Target → σ → List Call → Prop}

theorem paint_performs (ctx : FrameContext) (clear : Color) (drawn : Draws draw app Q)
    (texture : Nat) (h : Host) :
    ∃ alignment encoder app' h' cs, Performs (ctx.paint clear draw app texture) h app' h'
        (shownCalls clear (ctx.swapchain.target alignment texture encoder) cs).tail ∧
      Q (ctx.swapchain.target alignment texture encoder) app' cs := by
  obtain ⟨encoder, h₁, fresh⟩ := performs_fresh h
  let target := ctx.swapchain.target h₁.platform.alignment texture encoder
  let h₂ := h₁.after (.createEncoder encoder (label "frame encoder"))
  let h₃ := (h₂.after (.beginPass (clearPass clear target))).after (.draw target)
  obtain ⟨app', h₄, cs, drawn, allowed⟩ := drawn target h₃
  let h₅ := ((h₄.after .prePresentNotify).after (.submit encoder)).after (.present texture)
  refine ⟨h₁.platform.alignment, encoder, app', h₅, cs, ?_, allowed⟩
  exact fresh.bind <| (performs_record _ h₁).bind <| (performs_get h₂).bind <|
    (performs_record _ h₂).bind <| (performs_record _ _).bind <| drawn.bind <|
    (performs_record _ h₄).bind <| (performs_record _ _).bind <| (performs_record _ _).bind <|
    performs_pure app' h₅

theorem attempt_attempts (ctx : FrameContext) (clear : Color) (drawn : Draws draw app Q)
    (h : Host) :
    ∃ control app' h' cs, Performs (ctx.attempt clear draw app) h (control, app') h' cs ∧
      ctx.Attempts clear app Q control app' cs := by
  unfold attempt viewport
  rw [Swapchain.viewport_isValid]
  cases positive : ctx.swapchain.size.isPositive with
  | false => exact ⟨.proceed, app, h, [], performs_pure _ h, .minimised positive⟩
  | true =>
    obtain ⟨answer, h₁, acquired⟩ := performs_acquire h
    cases answer with
    | error e =>
      obtain ⟨h₂, recovered⟩ := ctx.swapchain.recover_calls e h₁
      -- the surface is always configured again here, since the window has area
      have calls : (if e.recovery = .reconfigure ∧ ctx.swapchain.size.isPositive then
          [Call.configure ctx.swapchain.config] else []) = (ctx.swapchain.failedCalls e).tail := by
        cases e <;> simp [Swapchain.failedCalls, SurfaceError.recovery, positive]
      have asks : (if e.recovery = .stop then Control.exit else .proceed) = e.control := by
        cases e <;> rfl
      rw [calls] at recovered
      refine ⟨e.control, app, h₂, _, ?_, .failed positive⟩
      rw [← asks]
      exact acquired.bind (recovered.bind_silent (performs_pure _ h₂))
    | ok texture =>
      obtain ⟨alignment, encoder, app', h₂, cs, painted, allowed⟩ :=
        ctx.paint_performs clear drawn texture h₁
      refine ⟨.proceed, app', h₂, _, ?_, .shown positive allowed⟩
      exact acquired.bind (painted.bind_silent (performs_pure _ h₂))

theorem render_attempts (ctx : FrameContext) (clear : Color) (drawn : Draws draw app Q) (h : Host) :
    ∃ control app' h' cs,
      Performs (ctx.render clear draw app) h (control, app') h' (cs ++ [.rendered control]) ∧
      ctx.Attempts clear app Q control app' cs := by
  obtain ⟨control, app', h₁, cs, attempted, attempts⟩ := ctx.attempt_attempts clear drawn h
  have rendered := performs_record (.rendered control) h₁
  exact ⟨control, app', _, cs, attempted.bind (rendered.bind (performs_pure _ _)), attempts⟩

end FrameContext

end GroundPlane
