import MapLayers.Json.Quantity
import MapLayers.Numeric.Arithmetic

/-!
# Compact labels

Large numbers are shown in thousands, millions, billions or trillions with at most two fraction
digits, rounded half to even. A number that rounds to a thousand of one unit is shown in the next.
-/

namespace MapLayers.Label

/-- A unit of a thousand or more: its size and its sign in a label. -/
structure LabelUnit where
  size : Nat
  suffix : String
  deriving DecidableEq, Repr

def units : List LabelUnit :=
  [⟨1000000000000, "T"⟩, ⟨1000000000, "B"⟩, ⟨1000000, "M"⟩, ⟨1000, "K"⟩]

/-- A label before it is written: sign, hundredths of the unit, and the unit's sign. -/
structure Compact where
  negative : Bool
  hundredths : Nat
  suffix : String
  deriving DecidableEq, Repr

def unitFor {α : Type} [Arithmetic α] (magnitude : α) :
    Option LabelUnit → List LabelUnit → Option (LabelUnit × Option LabelUnit)
  | _, [] => none
  | bigger, u :: rest =>
    if Arithmetic.less magnitude (Arithmetic.ofInt u.size) then unitFor magnitude (some u) rest
    else some (u, bigger)

/-- The label of a number whose hundredths can be rounded. -/
def compact {α : Type} [Arithmetic α] (hundredths : α → Nat) (negative : Bool) (magnitude : α) :
    Result Compact :=
  match unitFor magnitude none units with
  | some (u, bigger) => do
    let scaled := hundredths (← Arithmetic.div magnitude (Arithmetic.ofInt u.size))
    match bigger with
    | some b =>
      if 100000 ≤ scaled then
        return ⟨negative, hundredths (← Arithmetic.div magnitude (Arithmetic.ofInt b.size)), b.suffix⟩
      else return ⟨negative, scaled, u.suffix⟩
    | none => return ⟨negative, scaled, u.suffix⟩
  | none =>
    let scaled := hundredths magnitude
    if 100000 ≤ scaled then return ⟨negative, 100, "K"⟩ else return ⟨negative, scaled, ""⟩

/-- Trailing zeros of the fraction and a bare point are left out. -/
def trimZeros (text : String) : String :=
  let kept := text.toList.reverse.dropWhile (· = '0')
  let kept := match kept with
    | '.' :: rest => rest
    | cs => cs
  String.ofList kept.reverse

def Compact.text (c : Compact) : String :=
  (if c.negative then "-" else "") ++ trimZeros (Decimal.placesText 2 c.hundredths) ++ c.suffix

def roundedHundredths : Number → Nat
  | .int n => (100 * n).toNat
  | .float x => (roundHalfEven (Binary64.magnitude x * 100)).toNat

/-- The compact label of a value; null has an empty one. -/
def ofJson : Json → Result String
  | .null => .ok ""
  | value => do
    let x ← value.toFloat
    if Binary64.isNaN x then return "nanT"
    else if !Binary64.isFinite x then return if Binary64.signBit x then "-infT" else "infT"
    else
      let label ← compact roundedHundredths (x < 0) (Number.float x.abs)
      return label.text

end MapLayers.Label
