import MapLayers.Json.Compare

/-!
# Parts of a value

Documents are read without a schema, so every access says what it needs. Looking up a field gives
null when it is absent, taking it fails; both fail on what is no object. Items are taken by
position, a negative one counting from the end.
-/

namespace MapLayers.Json

def fieldsOrNone : Json → Fields
  | object fields => fields
  | _ => []

def fieldOf (fields : Fields) (key : String) : Json :=
  (Entries.get? fields key).getD null

def lookup (value : Json) (key : String) : Result Json :=
  match value with
  | object fields => .ok (fieldOf fields key)
  | _ => .error .noMember

/-- Looks up a key that itself comes from a document. No field has a key that is not a text. -/
def lookupBy (value key : Json) : Result Json :=
  match value with
  | object fields =>
    match key with
    | text s => .ok (fieldOf fields s)
    | list _ | object _ => .error .typeMismatch
    | _ => .ok null
  | _ => .error .noMember

def itemAt (items : List Json) (position : Int) : Result Json :=
  let index := if position < 0 then position + items.length else position
  if index < 0 then .error .badIndex
  else
    match items[index.toNat]? with
    | some item => .ok item
    | none => .error .badIndex

def letters (s : String) : List Json := s.toList.map fun c => text (String.ofList [c])

/-- The part of a value that a key or a position selects. -/
def select (value key : Json) : Result Json :=
  match value with
  | object fields =>
    match key with
    | text s =>
      match Entries.get? fields s with
      | some item => .ok item
      | none => .error .missingKey
    | list _ | object _ => .error .typeMismatch
    | _ => .error .missingKey
  | list items =>
    match key with
    | int n => itemAt items n
    | bool b => itemAt items (if b then 1 else 0)
    | _ => .error .typeMismatch
  | text s =>
    match key with
    | int n => itemAt (letters s) n
    | bool b => itemAt (letters s) (if b then 1 else 0)
    | _ => .error .typeMismatch
  | _ => .error .typeMismatch

def field (value : Json) (key : String) : Result Json := value.select (text key)

def item (value : Json) (position : Int) : Result Json := value.select (int position)

/-- What a walk over the value meets: items, letters or keys. -/
def elements : Json → Result (List Json)
  | list items => .ok items
  | text s => .ok (letters s)
  | object fields => .ok (fields.map fun entry => text entry.1)
  | _ => .error .typeMismatch

def size : Json → Result Nat
  | list items => .ok items.length
  | text s => .ok s.toList.length
  | object fields => .ok fields.length
  | _ => .error .typeMismatch

def firstItems (value : Json) (count : Nat) : Result (List Json) :=
  match value with
  | list items => .ok (items.take count)
  | text s => .ok (letters (String.ofList (s.toList.take count)))
  | _ => .error .typeMismatch

def keyText : Json → Result String
  | text s => .ok s
  | null => .ok "null"
  | bool b => .ok (if b then "true" else "false")
  | int n => .ok (Decimal.integerText n)
  | float x => .ok (Decimal.floatText x)
  | _ => .error .typeMismatch

/-- Adds the fields that a list of pairs holds. -/
def addPairs (fields : Fields) : List Json → Result Fields
  | [] => .ok fields
  | pair :: rest => do
    match ← pair.elements with
    | [key, value] =>
      let name ← key.keyText
      addPairs (Entries.set fields name value) rest
    | _ => throw .badValue

/-- The fields of an object, or of a list of pairs of keys and values. -/
def asFields (value : Json) : Result Fields :=
  match value with
  | object fields => .ok fields
  | _ => do addPairs [] (← value.elements)

end MapLayers.Json
