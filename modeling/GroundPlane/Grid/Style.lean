import GroundPlane.Geometry.Vector
import GroundPlane.Scalar.Single

/-!
# Grid styles
-/

namespace GroundPlane.Grid

/-- The look of the ground grid. Lines are drawn `fine` and `coarse` to the unit, one pass each.
`axisBand` is the half width of the highlighted axes in pixel extents, and `fadeOffset` the linear
depth at which the grid has faded out. -/
structure Style (α : Type) where
  fine : α
  coarse : α
  lineColor : Vec3 α
  axisBand : α
  fadeOffset : α
deriving DecidableEq

/-- Applies a function to each number of a style. -/
def Style.map {β γ : Type} (f : β → γ) (style : Style β) : Style γ where
  fine := f style.fine
  coarse := f style.coarse
  lineColor := style.lineColor.map f
  axisBand := f style.axisBand
  fadeOffset := f style.fadeOffset

/-- Dark grey lines at tenths and units that fade out at half the far distance. -/
def Style.standard : Style Float32 where
  fine := 10.0
  coarse := 1.0
  lineColor := ⟨0.2, 0.2, 0.2⟩
  axisBand := 0.1
  fadeOffset := 0.5

end GroundPlane.Grid
