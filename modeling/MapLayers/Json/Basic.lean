import MapLayers.Entries

/-!
# Documents

A document is a tree of nulls, booleans, numbers, texts, lists and objects. Whole numbers and
floating-point numbers are distinct, and an object keeps the order of its keys.
-/

namespace MapLayers

inductive Json where
  | null
  | bool (value : Bool)
  | int (value : Int)
  | float (value : Float)
  | text (value : String)
  | list (items : List Json)
  | object (fields : List (String × Json))
  deriving Inhabited

namespace Json

abbrev Fields := Entries String Json

def isNull : Json → Bool
  | null => true
  | _ => false

def isObject : Json → Bool
  | object _ => true
  | _ => false

def isList : Json → Bool
  | list _ => true
  | _ => false

def isText : Json → Bool
  | text _ => true
  | _ => false

/-- An empty, null, false or zero value counts as absent. NaN does not. -/
def truthy : Json → Bool
  | null => false
  | bool b => b
  | int n => n ≠ 0
  | float x => !(x == 0)
  | text s => s ≠ ""
  | list items => !items.isEmpty
  | object fields => !fields.isEmpty

def orElse (value other : Json) : Json := if value.truthy then value else other

/-- Lists and objects cannot be looked up in a set or used as keys. -/
def hashable : Json → Bool
  | list _ | object _ => false
  | _ => true

/-- The most digits of a whole number in a text that is read or written. -/
def maxDigits : Nat := 4300

mutual

/-- How many lists and objects are nested in one another at most. -/
def depth : Json → Nat
  | list items => itemsDepth items + 1
  | object fields => fieldsDepth fields + 1
  | _ => 0

def itemsDepth : List Json → Nat
  | [] => 0
  | item :: rest => max item.depth (itemsDepth rest)

def fieldsDepth : List (String × Json) → Nat
  | [] => 0
  | (_, value) :: rest => max value.depth (fieldsDepth rest)

end

/-- How messages call the type of a value. -/
def typeName : Json → String
  | null => "NoneType"
  | bool _ => "bool"
  | int _ => "int"
  | float _ => "float"
  | text _ => "str"
  | list _ => "list"
  | object _ => "dict"

end Json

end MapLayers
