import MapLayers.Numeric.Rounding

/-!
# Binary floating point seen exactly

A finite `Float` denotes a rational number. `value?` gives that number, `nearest?` goes back to
the closest `Float`, and everything that compares, rounds or prints a `Float` goes through them.
-/

namespace MapLayers.Binary64

/-- Two to the 52nd power: the weight of the leading bit of a normal significand. -/
def leadingBit : Nat := 4503599627370496

def notANumber : Float := Float.ofBits 0x7ff8000000000000
def infinity : Float := Float.ofBits 0x7ff0000000000000

def signBit (x : Float) : Bool :=
  x.toBits.toNat / 9223372036854775808 = 1

def exponentField (x : Float) : Nat :=
  x.toBits.toNat / leadingBit % 2048

def fractionField (x : Float) : Nat :=
  x.toBits.toNat % leadingBit

def isNaN (x : Float) : Bool :=
  exponentField x = 2047 && fractionField x ≠ 0

def isFinite (x : Float) : Bool :=
  exponentField x ≠ 2047

/-- Significand and power of two of a finite number, without its sign. -/
def significand (x : Float) : Nat × Int :=
  if exponentField x = 0 then (fractionField x, -1074)
  else (leadingBit + fractionField x, (exponentField x : Int) - 1075)

def magnitude (x : Float) : Rat :=
  let (m, e) := significand x
  m * (2 : Rat) ^ e

def value? (x : Float) : Option Rat :=
  if isFinite x then some (if signBit x then -magnitude x else magnitude x) else none

/-- Bits of the nearest non-negative number, a tie going to the even significand. A significand
that rounds up to the next power of two carries into the exponent by itself. -/
def nearestBits (q : Rat) : Nat :=
  if q = 0 then 0
  else
    let e := max (floorLog2 q - 52) (-1074)
    let m := (roundHalfEven (q / (2 : Rat) ^ e)).toNat
    if m < leadingBit then m else (e + 1075).toNat * leadingBit + (m - leadingBit)

/-- The `Float` closest to `q`; none when it would have to be infinite. -/
def nearest? (q : Rat) : Option Float :=
  let bits := nearestBits q.abs
  if bits < 0x7ff0000000000000 then
    let x := Float.ofBits bits.toUInt64
    some (if q < 0 then -x else x)
  else none

/-- The `Float` closest to `± significand · 10 ^ exponent`, infinite beyond the largest one. -/
def ofDecimal (negative : Bool) (significand : Nat) (exponent : Int) : Float :=
  let digits := ((Nat.toDigits 10 significand).length : Int)
  let x :=
    if significand = 0 ∨ digits + exponent < -330 then 0
    else if 320 < digits + exponent then infinity
    else (nearest? (significand * (10 : Rat) ^ exponent)).getD infinity
  if negative then -x else x

end MapLayers.Binary64
