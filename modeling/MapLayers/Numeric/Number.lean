import MapLayers.Fault
import MapLayers.Numeric.Binary64

/-!
# Numbers of a document

Whole numbers stay exact among themselves; together with a `Float` they are rounded to one first,
which fails beyond its range. Comparison is always exact, and NaN compares with nothing.
-/

namespace MapLayers

inductive Number where
  | int (value : Int)
  | float (value : Float)
  deriving Inhabited

/-- The rational line with its two ends. -/
inductive Extended where
  | negInf
  | finite (value : Rat)
  | posInf
  deriving DecidableEq, Repr

namespace Extended

def less : Extended → Extended → Bool
  | negInf, negInf => false
  | negInf, _ => true
  | finite a, finite b => a < b
  | finite _, posInf => true
  | _, _ => false

end Extended

namespace Number

/-- Where a number stands on the extended line; NaN stands nowhere. -/
def position? : Number → Option Extended
  | int n => some (.finite n)
  | float x =>
    match Binary64.value? x with
    | some q => some (.finite q)
    | none =>
      if Binary64.isNaN x then none
      else if Binary64.signBit x then some .negInf else some .posInf

def less (a b : Number) : Bool :=
  match a.position?, b.position? with
  | some p, some q => p.less q
  | _, _ => false

def atMost (a b : Number) : Bool :=
  match a.position?, b.position? with
  | some p, some q => !q.less p
  | _, _ => false

def same (a b : Number) : Bool :=
  match a.position?, b.position? with
  | some p, some q => p = q
  | _, _ => false

def ofInt? (n : Int) : Result Float :=
  match Binary64.nearest? n with
  | some x => .ok x
  | none => .error .tooLarge

def toFloat : Number → Result Float
  | int n => ofInt? n
  | float x => .ok x

/-- Exact on whole numbers, else on floats. -/
def combine (onInt : Int → Int → Int) (onFloat : Float → Float → Float) :
    Number → Number → Result Number
  | int a, int b => .ok (int (onInt a b))
  | a, b => do
    let x ← a.toFloat
    let y ← b.toFloat
    return float (onFloat x y)

def add : Number → Number → Result Number := combine (· + ·) (· + ·)
def sub : Number → Number → Result Number := combine (· - ·) (· - ·)
def mul : Number → Number → Result Number := combine (· * ·) (· * ·)

/-- A quotient of whole numbers is rounded once, from its exact value. -/
def div : Number → Number → Result Number
  | int a, int b =>
    if b = 0 then .error .divisionByZero
    else if a = 0 ∧ b < 0 then .ok (float (-0.0))
    else
      match Binary64.nearest? (a / b) with
      | some x => .ok (float x)
      | none => .error .tooLarge
  | a, b => do
    let x ← a.toFloat
    let y ← b.toFloat
    if y == 0 then throw .divisionByZero else return float (x / y)

def neg : Number → Number
  | int n => int (-n)
  | float x => float (-x)

/-- Rounds an exact value to a whole number; infinities and NaN have none. -/
def toInt (round : Rat → Int) : Number → Result Int
  | int n => .ok n
  | float x =>
    match Binary64.value? x with
    | some q => .ok (round q)
    | none => .error (if Binary64.isNaN x then .badValue else .tooLarge)

end Number

end MapLayers
