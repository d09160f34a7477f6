import MapLayers.Accessor.Basic
import MapLayers.Props.Key

/-!
# Props

The props of a compiled layer are trees of plain values and accessors. Serialising one replaces every
accessor by a placeholder, so that what remains is a document.
-/

namespace MapLayers

inductive PropValue where
  | null
  | bool (value : Bool)
  | int (value : Int)
  | float (value : Float)
  | text (value : String)
  | list (items : List PropValue)
  | tuple (items : List PropValue)
  | record (fields : List (PropKey × PropValue))
  | descriptor (type : PropValue) (props : PropValue) (filters : PropValue)
  | accessor (value : Accessor)

abbrev Props := Entries String PropValue

namespace PropValue

mutual

/-- Plain data as a prop. -/
def ofJson : Json → PropValue
  | .null => null
  | .bool b => bool b
  | .int n => int n
  | .float x => float x
  | .text s => text s
  | .list items => list (ofItems items)
  | .object fields => record (ofFields fields)

def ofItems : List Json → List PropValue
  | [] => []
  | item :: rest => ofJson item :: ofItems rest

def ofFields : List (String × Json) → List (PropKey × PropValue)
  | [] => []
  | (key, value) :: rest => (.field key, ofJson value) :: ofFields rest

end

def ofProps (props : Props) : PropValue :=
  record (props.map fun entry => (.field entry.1, entry.2))

def isNull : PropValue → Bool
  | null => true
  | _ => false

mutual

/-- The document that a prop is written as. Keys that are written alike count as one. -/
def toJson (placeholder : Json) : PropValue → Json
  | null => .null
  | bool b => .bool b
  | int n => .int n
  | float x => .float x
  | text s => .text s
  | list items => .list (toItems placeholder items)
  | tuple items => .list (toItems placeholder items)
  | record fields => .object (Entries.ofList (toFields placeholder fields))
  | descriptor type props filters =>
    let written :=
      [("type", toJson placeholder type), ("props", toJson placeholder props)]
    .object (if filters.isNull then written
      else written ++ [("filters", toJson placeholder filters)])
  | accessor _ => placeholder

def toItems (placeholder : Json) : List PropValue → List Json
  | [] => []
  | item :: rest => toJson placeholder item :: toItems placeholder rest

def toFields (placeholder : Json) : List (PropKey × PropValue) → List (String × Json)
  | [] => []
  | (key, value) :: rest => (key.text, toJson placeholder value) :: toFields placeholder rest

end

/-- The fields of a record; any other value has none. -/
def fields : PropValue → Entries PropKey PropValue
  | record fields => fields
  | _ => []

/-- The part of a prop at the end of a path of field names. -/
def at? (value : PropValue) : List String → Option PropValue
  | [] => some value
  | key :: rest =>
    match Entries.get? value.fields (.field key) with
    | some inner => inner.at? rest
    | none => none

end PropValue

end MapLayers
