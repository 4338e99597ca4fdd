import GroundPlane.Scalar.Rounding

/-!
# Powers in single precision

`x ^ y` is `2 ^ (y · log₂ x)`. Logarithm and exponential each take a table entry and a short minimax
polynomial in double precision, and the value is rounded once at the end. Zeros, infinities and NaN
follow the usual rules for powers of floating-point numbers.
-/

namespace GroundPlane.Power

/-- For sixteen points `c` of an interval around one: `1 / c` and `log₂ c`, as bits. -/
def logTable : Array (UInt64 × UInt64) := #[
  (0x3ff661ec79f8f3be, 0xbfdefec65b963019), (0x3ff571ed4aaf883d, 0xbfdb0b6832d4fca4),
  (0x3ff49539f0f010b0, 0xbfd7418b0a1fb77b), (0x3ff3c995b0b80385, 0xbfd39de91a6dcf7b),
  (0x3ff30d190c8864a5, 0xbfd01d9bf3f2b631), (0x3ff25e227b0b8ea0, 0xbfc97c1d1b3b7af0),
  (0x3ff1bb4a4a1a343f, 0xbfc2f9e393af3c9f), (0x3ff12358f08ae5ba, 0xbfb960cbbf788d5c),
  (0x3ff0953f419900a7, 0xbfaa6f9db6475fce), (0x3ff0000000000000, 0x0000000000000000),
  (0x3fee608cfd9a47ac, 0x3fb338ca9f24f53d), (0x3feca4b31f026aa0, 0x3fc476a9543891ba),
  (0x3feb2036576afce6, 0x3fce840b4ac4e4d2), (0x3fe9c2d163a1aa2d, 0x3fd40645f0c6651c),
  (0x3fe886e6037841ed, 0x3fd88e9c2c1b9ff8), (0x3fe767dcf5534862, 0x3fdce0a44eb17bcc)]

/-- The binary logarithm of a positive normal number given by its bits. An exponent below the normal
range is allowed, so that a subnormal number can be passed with a normalised mantissa. -/
def log2 (bits : Int) : Float :=
  let offset : Int := 0x3f330000
  let k := (bits - offset) / 0x800000
  let z := Float32.ofBits (UInt32.ofNat (bits - k * 0x800000).toNat)
  let entry := logTable.getD ((bits - offset) / 0x80000 % 16).toNat (0, 0)
  let r := Rounding.widen z * Float.ofBits entry.1 - 1
  let y0 := Float.ofBits entry.2 + Float.ofInt k
  let r2 := r * r
  let y := Float.ofBits 0x3fd27616c9496e0b * r + Float.ofBits 0xbfd71969a075c67a
  let p := Float.ofBits 0x3fdec70a6ca7badd * r + Float.ofBits 0xbfe7154748bef6c8
  let q := p * r2 + (Float.ofBits 0x3ff71547652ab82b * r + y0)
  y * (r2 * r2) + q

/-- The bits of `2 ^ (i / 32)` less `i` units of `2 ^ 47`, the part of the exponent that the table's
index already stands for. -/
def expTable : Array UInt64 := #[
  0x3ff0000000000000, 0x3fefd9b0d3158574, 0x3fefb5586cf9890f, 0x3fef9301d0125b51,
  0x3fef72b83c7d517b, 0x3fef54873168b9aa, 0x3fef387a6e756238, 0x3fef1e9df51fdee1,
  0x3fef06fe0a31b715, 0x3feef1a7373aa9cb, 0x3feedea64c123422, 0x3feece086061892d,
  0x3feebfdad5362a27, 0x3feeb42b569d4f82, 0x3feeab07dd485429, 0x3feea47eb03a5585,
  0x3feea09e667f3bcd, 0x3fee9f75e8ec5f74, 0x3feea11473eb0187, 0x3feea589994cce13,
  0x3feeace5422aa0db, 0x3feeb737b0cdc5e5, 0x3feec49182a3f090, 0x3feed503b23e255d,
  0x3feee89f995ad3ad, 0x3feeff76f2fb5e47, 0x3fef199bdd85529c, 0x3fef3720dcef9069,
  0x3fef5818dcfba487, 0x3fef7c97337b9b5f, 0x3fefa4afa2a490da, 0x3fefd0765b6e4540]

/-- `2 ^ x` for `|x| ≤ 150`. Adding and subtracting a large constant rounds `x` to a multiple of
`1 / 32`, whose count stands in the low bits of the sum. -/
def exp2 (x : Float) : Float :=
  let shifter := Float.ofBits 0x42e8000000000000
  let shifted := x + shifter
  let r := x - (shifted - shifter)
  let count := shifted.toBits
  let s := Float.ofBits (expTable.getD (count % 32).toNat 0 + count <<< 47)
  let z := Float.ofBits 0x3fac6af84b912394 * r + Float.ofBits 0x3fcebfce50fac4f3
  let y := Float.ofBits 0x3fe62e42ff0c52d6 * r + 1
  (z * (r * r) + y) * s

/-- How a single-precision number stands to the integers. -/
inductive Parity
  | fraction
  | odd
  | even
deriving DecidableEq

/-- Whether a finite nonzero number is no integer, an odd one or an even one. -/
def Parity.of (y : Float32) : Parity :=
  match y.toModel.unpack with
  | .finite _ m e _ =>
      if 0 < e then .even
      else
        let unit := 1 <<< (-e).toNat
        if m % unit ≠ 0 then .fraction
        else if m / unit % 2 = 1 then .odd
        else .even
  | _ => .even

/-- The bits of a positive finite number, with the mantissa of a subnormal one normalised and its
exponent field continued below zero. -/
def normalisedBits (x : Float32) : Int :=
  if x.toBits < 0x00800000 then ((x * 8388608.0).toBits.toNat : Int) - 23 * 0x800000
  else x.toBits.toNat

/-- `x ^ y` for a positive finite base and a finite nonzero exponent. -/
def positive (x y : Float32) : Float32 :=
  let e := Rounding.widen y * log2 (normalisedBits x)
  if Float.ofBits 0x405fffffffd1d571 < e then Float32.ofBits 0x7f800000
  else if e ≤ -150.0 then 0
  else Rounding.narrow (exp2 e)

/-- `x ^ y` for an infinite exponent: only the magnitude of the base counts. -/
def infiniteExponent (x y : Float32) : Float32 :=
  if x.abs == 1 then 1
  else if decide (x.abs < 1) == decide (0 < y) then 0
  else y * y

/-- `x ^ y` for a zero or infinite base and a finite nonzero exponent. -/
def extremeBase (x y : Float32) : Float32 :=
  let square := if x.toBits ≥ 0x80000000 ∧ Parity.of y = .odd then -(x * x) else x * x
  if y < 0 then 1 / square else square

/-- `x ^ y`. -/
def pow (x y : Float32) : Float32 :=
  if y == 0 || x == 1 then 1
  else if x.isNaN || y.isNaN then x + y
  else if y.isInf then infiniteExponent x y
  else if x == 0 || x.isInf then extremeBase x y
  else if 0 < x then positive x y
  else
    match Parity.of y with
    | .fraction => (x - x) / (x - x)
    | .odd => -positive (-x) y
    | .even => positive (-x) y

/-- Whether bits stand for a signaling NaN: the largest exponent, and a nonzero mantissa whose
leading bit is clear. -/
def isSignaling (bits : UInt32) : Bool :=
  let mantissa := bits.toNat % 0x800000
  bits.toNat >>> 23 % 256 == 255 && decide (0 < mantissa) && decide (mantissa < 0x400000)

/-- `x ^ y` for an exponent given by its bits. The powers of one are one even for a quiet NaN as the
exponent, but a signaling NaN has no power at all. -/
def powOfBits (x : Float32) (bits : UInt32) : Float32 :=
  if isSignaling bits then .ofBits bits else pow x (.ofBits bits)

end GroundPlane.Power
