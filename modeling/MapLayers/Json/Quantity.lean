import MapLayers.Json.Compare
import MapLayers.Text.Blank
import MapLayers.Text.Digit

/-!
# Numbers read from values

A text counts as the number it writes: spaces around it do not matter, digits of every script are
read, and a single low line may stand between two digits. Values of other kinds are refused.
-/

namespace MapLayers.Json

open Text

/-- Characters that may surround a number. The four separators of ASCII are none of them. -/
def isPadding (c : Char) : Bool := isBlank c && !(28 ≤ c.toNat && c.toNat ≤ 31)

def withoutPadding (cs : List Char) : List Char :=
  ((cs.dropWhile isPadding).reverse.dropWhile isPadding).reverse

def plainDigits (cs : List Char) : List Char :=
  cs.map fun c => match digitValue? c with
    | some d => Char.ofNat (48 + d)
    | none => c

/-- Removes the low lines between digits; any other low line is refused. -/
def joinDigits? : List Char → Option (List Char)
  | [] => some []
  | '_' :: _ => none
  | [c] => some [c]
  | c :: '_' :: d :: rest =>
    if c.isDigit && d.isDigit then (joinDigits? (d :: rest)).map (c :: ·) else none
  | c :: rest => (joinDigits? rest).map (c :: ·)

def splitSign : List Char → Bool × List Char
  | '-' :: rest => (true, rest)
  | '+' :: rest => (false, rest)
  | rest => (false, rest)

def exponent? (cs : List Char) : Option Int :=
  let (negative, digits) := splitSign cs
  if digits.isEmpty || !digits.all Char.isDigit then none
  else
    let n := (Decimal.natOfDigits digits : Int)
    some (if negative then -n else n)

/-- Digits with an optional point and an optional exponent, at least one digit before the latter. -/
def decimal? (negative : Bool) (cs : List Char) : Option Float :=
  let whole := cs.takeWhile Char.isDigit
  let afterWhole := cs.dropWhile Char.isDigit
  let (fraction, rest) := match afterWhole with
    | '.' :: r => (r.takeWhile Char.isDigit, r.dropWhile Char.isDigit)
    | r => ([], r)
  if whole.isEmpty && fraction.isEmpty then none
  else
    let exponent := match rest with
      | [] => some 0
      | e :: r => if e = 'e' ∨ e = 'E' then exponent? r else none
    exponent.map fun e =>
      Binary64.ofDecimal negative (Decimal.natOfDigits (whole ++ fraction)) (e - fraction.length)

def numberOfText? (s : String) : Option Float := do
  let cs ← joinDigits? (withoutPadding (plainDigits s.toList))
  let (negative, rest) := splitSign cs
  let name := String.ofList (rest.map Char.toLower)
  if name = "inf" ∨ name = "infinity" then
    return if negative then -Binary64.infinity else Binary64.infinity
  else if name = "nan" then return Binary64.notANumber
  else decimal? negative rest

def toFloat : Json → Result Float
  | text s =>
    match numberOfText? s with
    | some x => .ok x
    | none => .error .badValue
  | value =>
    match value.quantity? with
    | some n => n.toFloat
    | none => .error .typeMismatch

def wholeOfText? (s : String) : Option Int := do
  let cs ← joinDigits? (withoutPadding (plainDigits s.toList))
  let (negative, digits) := splitSign cs
  if digits.isEmpty || !digits.all Char.isDigit || 4300 < digits.length then none
  else
    let n := (Decimal.natOfDigits digits : Int)
    return if negative then -n else n

/-- The whole number that a value holds; a fraction is cut off. -/
def toWhole : Json → Result Int
  | text s =>
    match wholeOfText? s with
    | some n => .ok n
    | none => .error .badValue
  | value =>
    match value.quantity? with
    | some n => n.toInt truncate
    | none => .error .typeMismatch

/-- The number of a value on which arithmetic is done, booleans included. -/
def operand (value : Json) : Result Number :=
  match value.quantity? with
  | some n => .ok n
  | none => .error .typeMismatch

def negated (value : Json) : Result Json := do
  let n ← value.operand
  return ofNumber n.neg

end MapLayers.Json
