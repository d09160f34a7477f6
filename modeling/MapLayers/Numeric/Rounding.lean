/-!
# Rounding exact quotients

Every rounding of the library starts from an exact rational, so that no step rounds twice.
-/

namespace MapLayers

/-- The integer nearest to `q`, a half going to the even neighbour. -/
def roundHalfEven (q : Rat) : Int :=
  let low := q.floor
  let rest := q - low
  if rest < 1 / 2 then low
  else if 1 / 2 < rest then low + 1
  else if low % 2 = 0 then low else low + 1

def truncate (q : Rat) : Int :=
  if q < 0 then q.ceil else q.floor

/-- The exponent `e` with `2 ^ e ≤ q < 2 ^ (e + 1)`, for positive `q`. -/
def floorLog2 (q : Rat) : Int :=
  let e := (q.num.toNat.log2 : Int) - q.den.log2
  if (2 : Rat) ^ e ≤ q then e else e - 1

def digitCount (n : Nat) : Nat := (Nat.toDigits 10 n).length

/-- The exponent `e` with `10 ^ e ≤ q < 10 ^ (e + 1)`, for positive `q`. -/
def floorLog10 (q : Rat) : Int :=
  let e := (digitCount q.num.toNat : Int) - digitCount q.den
  if (10 : Rat) ^ e ≤ q then e else e - 1

end MapLayers
