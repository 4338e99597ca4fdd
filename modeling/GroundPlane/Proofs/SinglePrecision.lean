import Mathlib
import GroundPlane.Screen.Viewport
import GroundPlane.Scalar.Single
import GroundPlane.Gpu.Surface
import GroundPlane.Proofs.Rounding

/-!
# Whole numbers in single precision

A positive number of 32 bits is within the range of single precision, and it is not rounded to zero.
So a size is positive in single precision exactly when it has no zero side.
-/

namespace GroundPlane.SinglePrecision

open Float.Model
open Rounding

theorem unpack_toFloat32 {n : UInt32} (hn : n ≠ 0) :
    ∃ m e positive, n.toFloat32.toModel.unpack = .finite .positive m e positive := by
  have nonzero : n.toNat ≠ 0 := fun zero => hn (UInt32.toNat_inj.1 zero)
  have least := minExponent_nonpos .binary32
  obtain ⟨m, e, positive, rounded⟩ :=
    exists_finite_of_round .binary32 .positive (m := n.toNat) (e := 0) nonzero (by omega)
  have whole : UnpackedFloat.ofUInt32 .binary32 n = .finite .positive m e positive := by
    have order : compare (n.toNat : Int) 0 = .gt := by
      rw [Int.compare_eq_gt]
      omega
    unfold UnpackedFloat.ofUInt32 UnpackedFloat.ofNat UnpackedFloat.ofInt UnpackedFloat.normalize
    rw [order]
    exact rounded
  have bounded : Bounded .binary32 (32 : Nat) (UnpackedFloat.ofUInt32 .binary32 n) :=
    normalize_bounded .positive (atMost_natCast n.toNat_lt.le) (by omega)
  refine ⟨m, e, positive, ?_⟩
  change UnpackedFloat.unpack .binary32 (UnpackedFloat.pack .binary32 (.ofUInt32 .binary32 n)) = _
  rw [unpack_pack bounded (by decide) (by decide), whole]

theorem toFloat32_isFinite (n : UInt32) : n.toFloat32.isFinite := by
  by_cases hn : n = 0
  · subst hn
    decide
  · obtain ⟨m, e, positive, unpacked⟩ := unpack_toFloat32 hn
    change n.toFloat32.toModel.unpack.isFinite = true
    rw [unpacked]
    rfl

theorem toFloat32_pos_iff (n : UInt32) : 0 < n.toFloat32 ↔ n ≠ 0 := by
  constructor
  · rintro positive rfl
    exact absurd positive (by decide)
  · intro hn
    obtain ⟨m, e, positive, unpacked⟩ := unpack_toFloat32 hn
    have order : (0 : Float32).toModel.unpack.lt n.toFloat32.toModel.unpack = true := by
      rw [unpacked]
      rfl
    exact decide_eq_true order

end GroundPlane.SinglePrecision

namespace GroundPlane

open SinglePrecision

/-- A size is valid as a viewport exactly when neither side is zero. -/
theorem Size.viewport_isValid (s : Size) :
    Viewport.isValid { width := s.width.toFloat32, height := s.height.toFloat32 } =
      s.isPositive := by
  change (decide (0 < s.width.toFloat32) && decide (0 < s.height.toFloat32) &&
    s.width.toFloat32.isFinite &&
    s.height.toFloat32.isFinite) = (s.width != 0 && s.height != 0)
  simp only [toFloat32_pos_iff, toFloat32_isFinite, Bool.and_true, decide_not, bne]
  rfl

end GroundPlane
