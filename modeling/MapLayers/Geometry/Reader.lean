import MapLayers.Geometry.Basic
import MapLayers.Json.Access
import MapLayers.Json.Quantity
import MapLayers.Text.LetterCase

/-!
# Reading geometries

The geometry types of GeoJSON by name in any casing. Coordinates without any number make an empty
geometry; otherwise every path needs two positions and every ring three, all of two or all of three
coordinates, of which the third does not count. A feature stands for its geometry.
-/

namespace MapLayers.Geometry

def isHollow : Json → Bool
  | .null => true
  | .list items => areHollow items
  | _ => false
where
  areHollow : List Json → Bool
    | [] => true
    | item :: rest => isHollow item && areHollow rest

/-- A position with finite coordinates; others lie nowhere. -/
def position? (coordinates : List Float) : Option Position :=
  match coordinates with
  | x :: y :: _ => do
    let x ← Binary64.value? x
    let y ← Binary64.value? y
    return ⟨x, y⟩
  | _ => none

def shapeOf (positions : List (List Float)) (make : List Position → Shape) : Geometry :=
  match positions.mapM position? with
  | some found => [make found]
  | none => []

def hasDimension (coordinates : List Float) : Bool :=
  coordinates.length = 2 || coordinates.length = 3

/-- The coordinates of one position. A position may come in a list of its own. -/
def pointCoordinates : Json → Result (List Float)
  | .list [.list items] => items.mapM Json.toFloat
  | .list items => if items.any Json.isList then .error .badValue else items.mapM Json.toFloat
  | _ => .error .typeMismatch

def readPoint (value : Json) : Result Geometry := do
  let coordinates ← pointCoordinates value
  if hasDimension coordinates then
    return (position? coordinates).toList.map .point
  else throw .badValue

/-- The coordinates of several positions of one dimension. -/
def sequence (value : Json) : Result (List (List Float)) := do
  let entries ← value.elements
  let positions ← entries.mapM fun entry => do (← entry.elements).mapM Json.toFloat
  match positions with
  | [] => return []
  | first :: rest =>
    if hasDimension first && rest.all (fun p => p.length = first.length) then return positions
    else throw .badValue

def readPath (value : Json) : Result Geometry := do
  let positions ← sequence value
  match positions with
  | [] => return []
  | [_] => throw (.operation .geometry)
  | _ => return shapeOf positions .path

def readRing (value : Json) : Result (List (List Float)) := do
  if value.isNull then return []
  let positions ← sequence value
  if positions.length = 1 ∨ positions.length = 2 then throw .badValue
  return positions

/-- An area from its outer ring and its holes. -/
def readArea (shell : Json) (holes : List Json) : Result Geometry := do
  if shell.isNull then return []
  let outer ← readRing shell
  let inner ← holes.mapM readRing
  if outer.isEmpty then
    if holes.isEmpty then return [] else throw (.operation .geometry)
  match (outer :: inner).mapM fun ring => ring.mapM position? with
  | some rings => return [.area rings]
  | none => return []

def parts : Json → Result (List Json)
  | .list items => .ok items
  | .text s => .ok (Json.letters s)
  | .object _ => .error .missingKey
  | _ => .error .typeMismatch

def readPolygon (value : Json) : Result Geometry := do
  match ← parts value with
  | shell :: holes => readArea shell holes
  | [] => throw .badIndex

/-- Several geometries in one, none of which may be empty. -/
def readEach (read : Json → Result Geometry) (value : Json) : Result Geometry := do
  let all ← (← parts value).mapM fun part => do
    if part.isNull || (part.isList && isHollow part) then throw (.operation .emptyPart)
    read part
  return all.flatten

def readPoints (value : Json) : Result Geometry := do
  return (← (← parts value).mapM readPoint).flatten

def readPolygons (value : Json) : Result Geometry := do
  return (← (← value.elements).mapM readPolygon).flatten

def typeOf (fields : Json.Fields) : Result String :=
  match Json.fieldOf fields "type" with
  | .text s => .ok (Text.lower s)
  | _ => .error .noMember

def unknownType : Fault := .operation .geometryType

/-- The types that are made from coordinates. -/
def ofCoordinates (type : String) (fields : Json.Fields) : Result Geometry :=
  let coordinates := (Json.object fields).field "coordinates"
  match type with
  | "point" => coordinates.bind readPoint
  | "linestring" => coordinates.bind readPath
  | "linearring" =>
    coordinates.bind fun value => (readRing value).map fun ring =>
      shapeOf (ring ++ ring.take 1) .path
  | "polygon" => coordinates.bind readPolygon
  | "multipoint" => coordinates.bind readPoints
  | "multilinestring" => coordinates.bind (readEach readPath)
  | "multipolygon" => coordinates.bind readPolygons
  | _ => .error unknownType

/-- The types that can be empty for want of coordinates. -/
def ofNothing (type : String) : Result Geometry :=
  if ["point", "linestring", "polygon", "multipoint", "multilinestring", "multipolygon"].contains
      type then .ok []
  else .error unknownType

mutual

/-- The geometry of an object that is no feature. -/
def ofPlain : Json → Result Geometry
  | .object fields => do
    let type ← typeOf fields
    ofFields type fields fields
  | _ => .error .noMember

/-- The geometry of the given type; `rest` is searched for the members of a collection. -/
def ofFields (type : String) (all rest : List (String × Json)) : Result Geometry :=
  match Entries.get? all "coordinates" with
  | some coordinates =>
    if isHollow coordinates then ofNothing type
    else if type = "geometrycollection" then ofMembers rest
    else ofCoordinates type all
  | none => if type = "geometrycollection" then ofMembers rest else ofCoordinates type all

def ofMembers : List (String × Json) → Result Geometry
  | [] => .ok []
  | (key, value) :: rest => if key = "geometries" then ofCollection value else ofMembers rest

def ofCollection : Json → Result Geometry
  | .list items => ofItems items
  | value => do
    let entries ← value.elements
    if entries.isEmpty then return [] else throw .noMember

def ofItems : List Json → Result Geometry
  | [] => .ok []
  | item :: rest => do
    let first ← ofJson item
    let others ← ofItems rest
    return first ++ others

def ofFeature : List (String × Json) → Result Geometry
  | [] => .error .missingKey
  | (key, value) :: rest => if key = "geometry" then ofPlain value else ofFeature rest

def ofJson : Json → Result Geometry
  | .object fields => do
    let type ← typeOf fields
    if type = "feature" then ofFeature fields else ofFields type fields fields
  | _ => .error .noMember

end

end MapLayers.Geometry
