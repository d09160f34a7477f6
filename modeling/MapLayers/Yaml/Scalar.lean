import MapLayers.Json.Basic
import MapLayers.Numeric.Decimal

/-!
# Plain scalars of settings files

A scalar without quotes is null, a boolean, a whole number, a floating-point number or a date if it has
the form of one, and a text otherwise. A leading zero makes a whole number octal, low lines between
digits do not count, and colons separate digits of base sixty.
-/

namespace MapLayers.Yaml

def nullNames : List String := ["", "~", "null", "Null", "NULL"]

def trueNames : List String :=
  ["yes", "Yes", "YES", "true", "True", "TRUE", "on", "On", "ON"]

def falseNames : List String :=
  ["no", "No", "NO", "false", "False", "FALSE", "off", "Off", "OFF"]

def isBinary (c : Char) : Bool := c = '0' || c = '1'

def isOctal (c : Char) : Bool := '0' ≤ c && c ≤ '7'

def isHex (c : Char) : Bool := c.isDigit || ('a' ≤ c && c ≤ 'f') || ('A' ≤ c && c ≤ 'F')

def orLowLine (p : Char → Bool) (c : Char) : Bool := c = '_' || p c

def digitOf (c : Char) : Nat :=
  if c.isDigit then c.toNat - 48 else if 'a' ≤ c then c.toNat - 87 else c.toNat - 55

/-- The number that digits write in a base; low lines do not count. -/
def numeral (base : Nat) (cs : List Char) : Nat :=
  (cs.filter (· ≠ '_')).foldl (fun n c => n * base + digitOf c) 0

def splitSign : List Char → Bool × List Char
  | '-' :: rest => (true, rest)
  | '+' :: rest => (false, rest)
  | rest => (false, rest)

/-- The pieces between colons; `acc` holds the characters of the current one, last one first. -/
def colonPieces (acc : List Char) : List Char → List (List Char)
  | [] => [acc.reverse]
  | c :: rest => if c = ':' then acc.reverse :: colonPieces [] rest else colonPieces (c :: acc) rest

/-- Below sixty, with an optional first digit. -/
def isSixtieth : List Char → Bool
  | [d] => d.isDigit
  | [c, d] => '0' ≤ c && c ≤ '5' && d.isDigit
  | _ => false

def startsDecimal : List Char → Bool
  | c :: rest => c.isDigit && rest.all (orLowLine Char.isDigit)
  | [] => false

/-- A whole number without its sign. -/
def natural? (cs : List Char) : Option Nat :=
  match cs with
  | ['0'] => some 0
  | '0' :: 'b' :: c :: rest =>
    if (c :: rest).all (orLowLine isBinary) then some (numeral 2 (c :: rest)) else none
  | '0' :: 'x' :: c :: rest =>
    if (c :: rest).all (orLowLine isHex) then some (numeral 16 (c :: rest)) else none
  | '0' :: c :: rest =>
    if (c :: rest).all (orLowLine isOctal) then some (numeral 8 (c :: rest)) else none
  | _ =>
    match colonPieces [] cs with
    | [] => none
    | first :: sixtieths =>
      if startsDecimal first && sixtieths.all isSixtieth then
        some (sixtieths.foldl (fun n piece => n * 60 + numeral 10 piece) (numeral 10 first))
      else none

def whole? (cs : List Char) : Option Int :=
  let (negative, digits) := splitSign cs
  (natural? digits).map fun n => if negative then -(n : Int) else n

/-- An exponent with its sign, or nothing at all. -/
def exponent? : List Char → Option Int
  | [] => some 0
  | e :: s :: c :: rest =>
    if (e = 'e' || e = 'E') && (s = '-' || s = '+') && (c :: rest).all Char.isDigit then
      let n := (Decimal.natOfDigits (c :: rest) : Int)
      some (if s = '-' then -n else n)
    else none
  | _ => none

def isExponentMark (c : Char) : Bool := c = 'e' || c = 'E'

/-- Digits around a point, which has to be there. -/
def pointed? (negative : Bool) (cs : List Char) : Option Float :=
  let whole := cs.takeWhile (· ≠ '.')
  match cs.dropWhile (· ≠ '.') with
  | '.' :: rest =>
    let fraction := rest.takeWhile fun c => !isExponentMark c
    let wellFormed :=
      if whole.isEmpty then startsDecimal fraction
      else startsDecimal whole && fraction.all (orLowLine Char.isDigit)
    if wellFormed then
      (exponent? (rest.dropWhile fun c => !isExponentMark c)).map fun e =>
        let kept := fraction.filter (· ≠ '_')
        Binary64.ofDecimal negative (numeral 10 (whole ++ kept)) (e - kept.length)
    else none
  | _ => none

def floating? (cs : List Char) : Option Float :=
  let (negative, rest) := splitSign cs
  let name := String.ofList rest
  if [".inf", ".Inf", ".INF"].contains name then
    some (if negative then -Binary64.infinity else Binary64.infinity)
  else if [".nan", ".NaN", ".NAN"].contains (String.ofList cs) then some Binary64.notANumber
  else
    match cs with
    | '-' :: '.' :: _ | '+' :: '.' :: _ => none
    | _ => pointed? negative rest

def isDate (cs : List Char) : Bool :=
  cs.length = 10 && cs[4]? = some '-' && cs[7]? = some '-'
    && (cs.filter (· ≠ '-')).length = 8 && (cs.filter (· ≠ '-')).all Char.isDigit

/-- The value of a plain scalar. A date is no text, and stands for the number of its digits. -/
def plainValue (cs : List Char) : Json :=
  let s := String.ofList cs
  if nullNames.contains s then .null
  else if trueNames.contains s then .bool true
  else if falseNames.contains s then .bool false
  else
    match whole? cs with
    | some n => .int n
    | none =>
      match floating? cs with
      | some x => .float x
      | none =>
        if isDate cs then
          .float (Binary64.ofDecimal false (Decimal.natOfDigits (cs.filter (· ≠ '-'))) 0)
        else .text s

end MapLayers.Yaml
