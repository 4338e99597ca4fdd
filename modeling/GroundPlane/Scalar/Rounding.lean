/-!
# Rounding between number formats

Narrowing, widening, rounding down and truncation of binary floating-point numbers, each defined on
the unpacked value `± m · 2 ^ e`, so that all of them compute inside the logic.
-/

open Float.Model (Format UnpackedFloat)

namespace GroundPlane.Rounding

/-- The nearest value of a format, ties to even. Zeros, infinities and NaN stay as they are. -/
def toFormat (format : Format) : UnpackedFloat → UnpackedFloat
  | .finite sign m e _ => .round format sign m e
  | u => u

/-- The nearest single-precision number, ties to even; a value out of range becomes infinite. -/
def narrow (x : Float) : Float32 :=
  .ofModel (.pack (toFormat .binary32 x.toModel.unpack))

/-- The double-precision number of the same value. -/
def widen (x : Float32) : Float :=
  .ofModel (.pack (toFormat .binary64 x.toModel.unpack))

/-- The greatest integer not above `± m · 2 ^ e`. What is not finite, or already an integer by its
exponent, stays as it is, and so does the sign of a zero. -/
def floorUnpacked (format : Format) : UnpackedFloat → UnpackedFloat
  | .finite sign m e pos =>
      if 0 ≤ e then
        .finite sign m e pos
      else
        let unit := 1 <<< (-e).toNat
        match sign with
        | .positive => if m < unit then .zero .positive else .round format .positive (m / unit) 0
        | .negative => .round format .negative ((m + (unit - 1)) / unit) 0
  | u => u

/-- The greatest integer not above `x`. -/
def floor (x : Float32) : Float32 :=
  .ofModel (.pack (floorUnpacked .binary32 x.toModel.unpack))

/-- The integer part of a finite number, toward zero; zero for anything else. -/
def truncate (x : Float) : Int :=
  match x.toModel.unpack with
  | .finite sign m e _ =>
      let magnitude := if 0 ≤ e then m <<< e.toNat else m >>> (-e).toNat
      match sign with
      | .positive => magnitude
      | .negative => -magnitude
  | _ => 0

end GroundPlane.Rounding
