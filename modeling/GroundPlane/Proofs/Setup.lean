import Mathlib
import GroundPlane.Session.Loop
import GroundPlane.Proofs.Swapchain

/-!
# Setting up a window

A window is set up in stages, each of which may fail: the window, its size, the surface, the
adapter, the device and the format. The first failure ends the setup (`Entry.create_performs`): no
call of a later stage is made, and what was made before is destroyed.
-/

namespace GroundPlane

open Gpu Session

/-- The calls that open a device, one stage after the other. -/
def deviceCalls (options : Options) : List Call :=
  [.requestAdapter .highPerformance true false, .requestDevice (label "device") options.features]

/-- The calls that open a window and a device for it, one stage after the other. -/
def setupCalls (window : WindowOptions) (options : Options) : List Call :=
  .createWindow window.title window.width window.height :: .createInstance :: .createSurface ::
    deviceCalls options

/-- The first failure among the answers of a platform that is asked for a device. -/
def Platform.deviceError? (p : Platform) (options : Options) : Option SetupError :=
  match p.faults.requestAdapter, p.faults.requestDevice,
    chooseFormat? p.formats options.preferSrgb with
  | some cause, _, _ => some (.adapter cause)
  | none, some cause, _ => some (.device cause)
  | none, none, none => some .noFormat
  | none, none, some _ => none

/-- The first failure among the answers of a host on which a window is set up. -/
def Host.setupError? (h : Host) (options : Options) : Option SetupError :=
  match h.platform.faults.createWindow, h.innerSize.isPositive, h.platform.faults.createSurface with
  | some cause, _, _ => some (.window cause)
  | none, false, _ => some .zeroSize
  | none, true, some cause => some (.surface cause)
  | none, true, none => h.platform.deviceError? options

namespace SetupError

/-- How many of the setup's calls are made until it fails. -/
def reached : SetupError → Nat
  | window _ | zeroSize => 1
  | surface _ => 3
  | adapter _ => 4
  | device _ | noFormat => 5

/-- What has to be destroyed after a failure. -/
def drops : SetupError → List Call
  | window _ => []
  | zeroSize | surface _ => [.dropWindow]
  | adapter _ | device _ | noFormat => [.dropSurface, .dropWindow]

/-- The calls of a setup that fails. -/
def calls (error : SetupError) (window : WindowOptions) (options : Options) : List Call :=
  (setupCalls window options).take error.reached ++ error.drops

end SetupError

theorem SetupError.calls_of_deviceError {p : Platform} {options : Options} {error : SetupError}
    (unfit : p.deviceError? options = some error) (window : WindowOptions) :
    error.calls window options =
      .createWindow window.title window.width window.height :: .createInstance :: .createSurface ::
      ((deviceCalls options).take (error.reached - 3) ++ [.dropSurface, .dropWindow]) := by
  unfold Platform.deviceError? at unfit
  split at unfit <;> cases unfit <;> rfl

namespace Swapchain

theorem openDevice_performs (options : Options) (size : Size) (h : Host) :
    (∃ error h', h.platform.deviceError? options = some error ∧
      Performs (openDevice options size) h (.error error) h'
        ((deviceCalls options).take (error.reached - 3))) ∨
    (∃ s h', h.platform.deviceError? options = none ∧
      Performs (openDevice options size) h (.ok s) h'
        (deviceCalls options ++ [.configure s.config, .createDepth (label "depth") s.depth])) := by
  unfold openDevice Platform.deviceError?
  let h₁ := h.after (.requestAdapter .highPerformance true false)
  let h₂ := h₁.after (.requestDevice (label "device") options.features)
  have adapter := performs_record (.requestAdapter .highPerformance true false) h
  have device := performs_record (.requestDevice (label "device") options.features) h₁
  cases ha : h.platform.faults.requestAdapter with
  | some cause =>
    refine .inl ⟨.adapter cause, h₁, rfl, performs_get_bind ?_⟩
    simp only [ha]
    exact adapter.bind (performs_pure _ h₁)
  | none =>
    cases hd : h.platform.faults.requestDevice with
    | some cause =>
      refine .inl ⟨.device cause, h₂, rfl, performs_get_bind ?_⟩
      simp only [ha, hd]
      exact adapter.bind (device.bind (performs_pure _ h₂))
    | none =>
      cases hf : chooseFormat? h.platform.formats options.preferSrgb with
      | none =>
        refine .inl ⟨.noFormat, h₂, rfl, performs_get_bind ?_⟩
        simp only [ha, hd, hf]
        exact adapter.bind (device.bind (performs_pure _ h₂))
      | some format =>
        let config := configFor options h.platform format size
        have configured := performs_record (.configure config) h₂
        obtain ⟨depth, h₃, -, created⟩ :=
          createDepth_performs options.depthFormat config.size (h₂.after (.configure config))
        refine .inr ⟨⟨config, depth, size⟩, h₃, rfl, performs_get_bind ?_⟩
        simp only [ha, hd, hf]
        exact adapter.bind (device.bind (configured.bind (created.bind (performs_pure _ h₃))))

theorem create_performs (options : Options) (window : WindowOptions) {h : Host}
    (opened : h.platform.faults.createWindow = none) :
    (∃ error h' cs,
      h.setupError? options = some error ∧ Performs (create options) h (.error error) h' cs ∧
      error.calls window options =
        .createWindow window.title window.width window.height :: (cs ++ [.dropWindow])) ∨
    (∃ s h', h.setupError? options = none ∧ Performs (create options) h (.ok s) h'
      ((setupCalls window options).tail ++
        [.configure s.config, .createDepth (label "depth") s.depth])) := by
  unfold create Host.setupError?
  let h₁ := h.after .createInstance
  let h₂ := h₁.after .createSurface
  have opening := performs_record .createInstance h
  have surface := performs_record .createSurface h₁
  simp only [opened]
  cases hp : h.innerSize.isPositive with
  | false =>
    refine .inl ⟨.zeroSize, h, [], rfl, performs_get_bind ?_, rfl⟩
    simp only [hp]
    exact performs_pure _ h
  | true =>
    cases hs : h.platform.faults.createSurface with
    | some cause =>
      refine .inl ⟨.surface cause, h₂, [.createInstance, .createSurface], rfl, performs_get_bind ?_,
        rfl⟩
      simp only [hp, hs]
      exact opening.bind (surface.bind (performs_pure _ h₂))
    | none =>
      rcases openDevice_performs options h.innerSize h₂ with
        ⟨error, h₃, unfit, device⟩ | ⟨s, h₃, fit, device⟩
      · have dropped := performs_record .dropSurface h₃
        refine .inl ⟨error, h₃.after .dropSurface, .createInstance :: .createSurface ::
          ((deviceCalls options).take (error.reached - 3) ++ [.dropSurface]), unfit,
          performs_get_bind ?_, ?_⟩
        · simp only [hp, hs]
          exact opening.bind (surface.bind (device.bind (dropped.bind (performs_pure _ _))))
        · rw [SetupError.calls_of_deviceError unfit]
          simp
      · refine .inr ⟨s, h₃, fit, performs_get_bind ?_⟩
        simp only [hp, hs]
        exact opening.bind (surface.bind (device.bind_silent (performs_pure _ h₃)))

end Swapchain

theorem Entry.create_performs (window : WindowOptions) (options : Options) (h : Host) :
    (∃ error h', h.setupError? options = some error ∧
      Performs (create window options) h (.error error) h' (error.calls window options)) ∨
    (∃ e h', h.setupError? options = none ∧ Performs (create window options) h (.ok e) h'
      (setupCalls window options ++
        [.configure e.swapchain.config, .createDepth (label "depth") e.swapchain.depth])) := by
  unfold create
  let h₁ := h.after (.createWindow window.title window.width window.height)
  have asked :
      Performs (record (.createWindow window.title window.width window.height)) h () h₁ _ :=
    performs_record _ h
  cases hw : h₁.platform.faults.createWindow with
  | some cause =>
    refine .inl ⟨.window cause, h₁, ?_, asked.bind (performs_get_bind ?_)⟩
    · change h.platform.faults.createWindow = _ at hw
      rw [Host.setupError?, hw]
    · simp only [hw]
      exact performs_pure _ h₁
  | none =>
    rcases Swapchain.create_performs options window hw with ⟨error, h₂, cs, unfit, made,
      calls⟩ | ⟨s, h₂, fit, made⟩
    · have dropped := performs_record .dropWindow h₂
      refine .inl ⟨error, h₂.after .dropWindow, unfit, ?_⟩
      rw [calls]
      refine asked.bind (performs_get_bind ?_)
      simp only [hw]
      exact made.bind (dropped.bind (performs_pure _ _))
    · refine .inr ⟨⟨s, .initial, .standard⟩, h₂, fit, asked.bind (performs_get_bind ?_)⟩
      simp only [hw]
      exact made.bind_silent (performs_pure _ h₂)

end GroundPlane
