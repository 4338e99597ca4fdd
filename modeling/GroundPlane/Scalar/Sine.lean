import GroundPlane.Scalar.Rounding

/-!
# Sine and cosine in single precision

The argument is reduced to a quadrant and a remainder of at most an eighth of a turn, the remainder
goes through a minimax polynomial in double precision, and the value is rounded once at the end.
-/

namespace GroundPlane.Sine

/-- An angle as `quadrant` quarter turns plus `remainder`. The quadrant counts modulo four. -/
structure Reduced where
  quadrant : Nat
  remainder : Float

/-- A quarter turn, `π / 2`. -/
def quarterTurn : Float := Float.ofBits 0x3ff921fb54442d18

/-- `2 / π` scaled by `2 ^ 24`. -/
def quarterTurnsPerRadian : Float := Float.ofBits 0x41645f306dc9c883

/-- Reduction of a moderate angle: the nearest whole number of quarter turns is subtracted. -/
def reduceModerate (x : Float) : Reduced :=
  let n := (Rounding.truncate (x * quarterTurnsPerRadian) + 0x800000) / 0x1000000
  { quadrant := (n % 4).toNat, remainder := x - Float.ofInt n * quarterTurn }

/-- The bits of `4 / π`, as overlapping words that start eight bits apart. -/
def fourOverPi : Array UInt32 := #[
  0xa2,       0xa2f9,     0xa2f983,   0xa2f9836e,
  0xf9836e4e, 0x836e4e44, 0x6e4e4415, 0x4e441529,
  0x441529fc, 0x1529fc27, 0x29fc2757, 0xfc2757d1,
  0x2757d1f5, 0x57d1f534, 0xd1f534dd, 0xf534ddc0,
  0x34ddc0db, 0xddc0db62, 0xc0db6295, 0xdb629599,
  0x6295993c, 0x95993c43, 0x993c4390, 0x3c439041]

/-- The word of `4 / π` at a place; zero past the end. -/
def fourOverPiWord (i : Nat) : Nat :=
  (fourOverPi.getD i 0).toNat

/-- Reduction of a large angle given by its bits. The magnitude, as an integer of at most 31 bits,
is multiplied by the 96 bits of `4 / π` that matter for its exponent. The product is kept modulo
`2 ^ 64`, its two top bits are the quadrant, and the rest is a fraction of a quarter turn. -/
def reduceLarge (bits : UInt32) : Reduced :=
  let start := bits.toNat >>> 26 % 16
  let shift := bits.toNat >>> 23 % 8
  let m := (bits.toNat % 0x800000 + 0x800000) <<< shift
  let high := (m * fourOverPiWord start % UInt32.size) <<< 32
  let middle := m * fourOverPiWord (start + 4)
  let low := (m * fourOverPiWord (start + 8)) >>> 32
  let product : Nat := (high + low + middle) % UInt64.size
  let n : Nat := ((product + 1 <<< 61) % UInt64.size) >>> 62
  let rest : Int := ((product : Int) - n <<< 62).bmod UInt64.size
  { quadrant := n, remainder := Float.ofInt rest * Float.ofBits 0x3c1921fb54442d18 }

/-- The sine polynomial at `x`, for `|x| ≤ π / 4`. -/
def sinePolynomial (x : Float) : Float :=
  let s1 := Float.ofBits 0xbfc555545995a603
  let s2 := Float.ofBits 0x3f81107605230bc4
  let s3 := Float.ofBits 0xbf2994eb3774cf24
  let x2 := x * x
  let x3 := x * x2
  (x + x3 * s1) + x3 * x2 * (s2 + x2 * s3)

/-- The cosine polynomial at `x`, for `|x| ≤ π / 4`. -/
def cosinePolynomial (x : Float) : Float :=
  let c1 := Float.ofBits 0xbfdffffffd0c621c
  let c2 := Float.ofBits 0x3fa55553e1068f19
  let c3 := Float.ofBits 0xbf56c087e89a359d
  let c4 := Float.ofBits 0x3ef99343027bf8c3
  let x2 := x * x
  let x4 := x2 * x2
  ((1.0 + x2 * c1) + x4 * c2) + x4 * x2 * (c3 + x2 * c4)

/-- The sine of a reduced angle. -/
def Reduced.sin (r : Reduced) : Float :=
  match r.quadrant % 4 with
  | 0 => sinePolynomial r.remainder
  | 1 => cosinePolynomial r.remainder
  | 2 => sinePolynomial (-r.remainder)
  | _ => -cosinePolynomial r.remainder

/-- The cosine of a reduced angle: the sine a quarter turn ahead. -/
def Reduced.cos (r : Reduced) : Float :=
  Reduced.sin { r with quadrant := r.quadrant + 1 }

/-- The leading eleven bits of the magnitude, by which the ranges of an argument are told apart. -/
def scale (x : Float32) : Nat :=
  x.toBits.toNat >>> 20 % 0x800

/-- The ranges of arguments: below `2 ^ -12`, below about `π / 4`, below 120, finite, and the
rest. -/
inductive Range
  | tiny
  | small
  | moderate
  | large
  | unbounded
deriving DecidableEq

/-- The range in which an argument lies. -/
def Range.of (x : Float32) : Range :=
  let s := scale x
  if s < 0x398 then .tiny
  else if s < 0x3f4 then .small
  else if s < 0x42f then .moderate
  else if s < 0x7f8 then .large
  else .unbounded

/-- The sine of an angle in radians; NaN for an infinite angle or NaN. -/
def sin (x : Float32) : Float32 :=
  match Range.of x with
  | .tiny => x
  | .small => Rounding.narrow (sinePolynomial (Rounding.widen x))
  | .moderate => Rounding.narrow (reduceModerate (Rounding.widen x)).sin
  | .large =>
      let magnitude := (reduceLarge x.toBits).sin
      Rounding.narrow (if x < 0 then -magnitude else magnitude)
  | .unbounded => x - x

/-- The cosine of an angle in radians; NaN for an infinite angle or NaN. -/
def cos (x : Float32) : Float32 :=
  match Range.of x with
  | .tiny => 1
  | .small => Rounding.narrow (cosinePolynomial (Rounding.widen x))
  | .moderate => Rounding.narrow (reduceModerate (Rounding.widen x)).cos
  | .large => Rounding.narrow (reduceLarge x.toBits).cos
  | .unbounded => x - x

end GroundPlane.Sine
