import MapLayers.Numeric.Binary64

/-!
# Decimal text of numbers

`shortest` chooses the fewest digits that read back to the same `Float`, the nearest such decimal
when several have that many. `fixed` writes a given number of places, correctly rounded from the
exact value. Reading accepts the usual decimal grammar with an optional exponent.
-/

namespace MapLayers.Decimal

open Binary64

/-- The decimal number `digits · 10 ^ exponent`. -/
structure Scientific where
  digits : Nat
  exponent : Int
  deriving DecidableEq, Repr

namespace Scientific

def value (d : Scientific) : Rat := d.digits * (10 : Rat) ^ d.exponent

def trimmed (d : Scientific) : Scientific :=
  go (digitCount d.digits) d.digits d.exponent
where
  go : Nat → Nat → Int → Scientific
    | 0, m, e => ⟨m, e⟩
    | fuel + 1, m, e => if m ≠ 0 ∧ m % 10 = 0 then go fuel (m / 10) (e + 1) else ⟨m, e⟩

end Scientific

/-- The rationals that round to one `Float`, with the value itself. The ends belong to it when the
significand is even. -/
structure RoundingInterval where
  low : Rat
  value : Rat
  high : Rat
  closed : Bool

namespace RoundingInterval

def ofFloat (x : Float) : RoundingInterval :=
  let (m, e) := significand x
  let unit := (2 : Rat) ^ e
  let below := if m = leadingBit ∧ 1 < exponentField x then unit / 4 else unit / 2
  ⟨m * unit - below, m * unit, m * unit + unit / 2, m % 2 = 0⟩

def contains (r : RoundingInterval) (q : Rat) : Bool :=
  if r.closed then r.low ≤ q && q ≤ r.high else r.low < q && q < r.high

/-- The decimal with last digit at `10 ^ e` that reads back, the nearer of the two neighbours of the
value if both do. -/
def onGrid? (r : RoundingInterval) (e : Int) : Option Scientific :=
  let unit := (10 : Rat) ^ e
  let low := (r.value / unit).floor
  let below : Scientific := ⟨low.toNat, e⟩
  let above : Scientific := ⟨low.toNat + 1, e⟩
  match r.contains below.value, r.contains above.value with
  | false, false => none
  | true, false => some below
  | false, true => some above
  | true, true => some ⟨(roundHalfEven (r.value / unit)).toNat, e⟩

end RoundingInterval

/-- The fewest digits that read back as the positive finite number `x`. Seventeen always do. -/
def shortest (x : Float) : Scientific :=
  let r := RoundingInterval.ofFloat x
  let lead := floorLog10 r.value
  let found := (List.range 17).findSome? fun (n : Nat) => r.onGrid? (lead - n)
  (found.getD ⟨0, 0⟩).trimmed

/-- Where positional notation ends and how an exponent is written. -/
structure Layout where
  firstPositional : Int
  endPositional : Int
  exponentDigits : Nat

/-- Numbers from `10 ^ -4` up to `10 ^ 16` are written positionally, with a point; an exponent has
a sign and two digits. -/
def layout : Layout := ⟨-4, 16, 2⟩

def digitText (n : Nat) : String := String.ofList (Nat.toDigits 10 n)

def zeros (n : Nat) : String := String.ofList (List.replicate n '0')

def padded (width : Nat) (text : String) : String :=
  zeros (width - text.length) ++ text

def integerText (n : Int) : String :=
  if n < 0 then "-" ++ digitText n.natAbs else digitText n.natAbs

def Layout.render (l : Layout) (d : Scientific) : String :=
  let text := digitText d.digits
  let count := (text.length : Int)
  let lead := d.exponent + count - 1
  if lead < l.firstPositional ∨ l.endPositional ≤ lead then
    let mantissa :=
      if count = 1 then text else String.ofList (text.toList.take 1 ++ '.' :: text.toList.drop 1)
    mantissa ++ "e" ++ (if lead < 0 then "-" else "+")
      ++ padded l.exponentDigits (digitText lead.natAbs)
  else if lead < 0 then "0." ++ zeros (-lead - 1).toNat ++ text
  else if 0 ≤ d.exponent then text ++ zeros d.exponent.toNat ++ ".0"
  else
    let whole := (lead + 1).toNat
    String.ofList (text.toList.take whole ++ '.' :: text.toList.drop whole)

def floatText (x : Float) : String :=
  if isNaN x then "nan"
  else
    let magnitude :=
      if !isFinite x then "inf"
      else if Binary64.magnitude x = 0 then "0.0"
      else layout.render (shortest x)
    if signBit x then "-" ++ magnitude else magnitude

def placesText (places : Nat) (n : Nat) : String :=
  if places = 0 then digitText n
  else
    let digits := (padded (places + 1) (digitText n)).toList
    let whole := digits.length - places
    String.ofList (digits.take whole ++ '.' :: digits.drop whole)

/-- `x` rounded to a fixed number of places, a half of the exact value going to the even digit. -/
def fixed (places : Nat) (x : Float) : String :=
  if isNaN x then "nan"
  else
    let magnitude :=
      if !isFinite x then "inf"
      else
        let scaled := roundHalfEven (Binary64.magnitude x * (10 : Rat) ^ (places : Int))
        placesText places scaled.toNat
    if signBit x then "-" ++ magnitude else magnitude

def natOfDigits (cs : List Char) : Nat :=
  cs.foldl (fun n c => 10 * n + (c.toNat - '0'.toNat)) 0

end MapLayers.Decimal
