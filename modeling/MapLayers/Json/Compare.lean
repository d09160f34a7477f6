import MapLayers.Json.Basic
import MapLayers.Numeric.Number

/-!
# Equality of values

Numbers are equal when they denote the same number, whatever their form, and a boolean equals one
or zero. Lists are equal item by item; objects are equal when they have the same keys with equal
values, in any order.
-/

namespace MapLayers.Json

def number? : Json → Option Number
  | int n => some (.int n)
  | float x => some (.float x)
  | _ => none

/-- The value of a number, with booleans as one and zero. -/
def quantity? : Json → Option Number
  | bool b => some (.int (if b then 1 else 0))
  | value => value.number?

def ofNumber : Number → Json
  | .int n => int n
  | .float x => float x

/-- A number that is not NaN; its absence for NaN is a failure for whole numbers beyond the range of
floating-point ones. -/
def properNumber? (value : Json) : Result (Option Number) :=
  match value.number? with
  | some n => do
    let x ← n.toFloat
    return if Binary64.isNaN x then none else some n
  | none => .ok none

mutual

def same : Json → Json → Bool
  | list a, list b => sameItems a b
  | object a, object b => a.length = b.length && sameFields a b
  | text a, text b => a = b
  | null, null => true
  | a, b =>
    match a.quantity?, b.quantity? with
    | some m, some n => m.same n
    | _, _ => false

def sameItems : List Json → List Json → Bool
  | [], [] => true
  | a :: as, b :: bs => same a b && sameItems as bs
  | _, _ => false

/-- Every field of the first has an equal one in the second. -/
def sameFields : List (String × Json) → List (String × Json) → Bool
  | [], _ => true
  | (key, value) :: rest, others =>
    match Entries.get? others key with
    | some other => same value other && sameFields rest others
    | none => false

end

def isNaN : Json → Bool
  | float x => Binary64.isNaN x
  | _ => false

def isTheText (value : Json) (s : String) : Bool :=
  match value with
  | text t => t = s
  | _ => false

def occursIn (pattern : List Char) : List Char → Bool
  | [] => pattern.isEmpty
  | c :: cs => pattern.isPrefixOf (c :: cs) || occursIn pattern cs

/-- Membership: a key of an object, an equal item of a list, a part of a text. -/
def contains (container item : Json) : Result Bool :=
  match container with
  | object fields =>
    match item with
    | text key => .ok (Entries.has fields key)
    | list _ | object _ => .error .typeMismatch
    | _ => .ok false
  | list items => .ok (items.any fun other => same other item)
  | text s =>
    match item with
    | text pattern => .ok (occursIn pattern.toList s.toList)
    | _ => .error .typeMismatch
  | _ => .error .typeMismatch

end MapLayers.Json
