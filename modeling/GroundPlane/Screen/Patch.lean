import GroundPlane.Geometry.Vector

/-!
# Pixel patches

A fragment together with its right and lower neighbours. Differences within a patch are the
screen-space derivatives of whatever the fragments carry.
-/

namespace GroundPlane

/-- The values at a pixel, at the pixel to its right and at the pixel below it. -/
structure Patch (β : Type) where
  here : β
  right : β
  below : β
deriving DecidableEq

/-- Values with a magnitude per component. -/
class Magnitude (β : Type) where
  /-- The magnitude of each component. -/
  abs : β → β

instance {α : Type} [Scalar α] : Magnitude α := ⟨Scalar.abs⟩
instance {α : Type} [Scalar α] : Magnitude (Vec2 α) := ⟨Vec2.map Scalar.abs⟩
instance {α : Type} [Scalar α] : Magnitude (Vec3 α) := ⟨Vec3.map Scalar.abs⟩

namespace Patch

variable {β γ : Type}

/-- Evaluates a function of the position at a pixel and its neighbours. -/
def sample {α : Type} [Scalar α] (px py : α) (f : α → α → β) : Patch β :=
  ⟨f px py, f (px + 1) py, f px (py + 1)⟩

/-- The same value at all three pixels. -/
def constant (b : β) : Patch β :=
  ⟨b, b, b⟩

/-- Applies a function at each pixel. -/
def map (f : β → γ) (p : Patch β) : Patch γ :=
  ⟨f p.here, f p.right, f p.below⟩

/-- The change per pixel to the right. -/
def ddx [Sub β] (p : Patch β) : β :=
  p.right - p.here

/-- The change per pixel downwards. -/
def ddy [Sub β] (p : Patch β) : β :=
  p.below - p.here

/-- The extent of a pixel: the sum of both magnitudes of change. -/
def width [Add β] [Sub β] [Magnitude β] (p : Patch β) : β :=
  Magnitude.abs p.ddx + Magnitude.abs p.ddy

end Patch

end GroundPlane
