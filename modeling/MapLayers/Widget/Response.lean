import MapLayers.Json.Access
import MapLayers.Json.Quantity

/-!
# Widget responses

What the aggregation service answers, read from its payloads. A payload has to have the outer form of
its kind; the values inside are taken as they come.
-/

namespace MapLayers

/-- An object, or a failure that names what was expected. -/
def requireObject (payload : Json) (what : String) : Result Json.Fields :=
  match payload with
  | .object fields => .ok fields
  | _ => .error (.expectedResponse what)

def elementsOrNone (value : Json) : Result (List Json) :=
  if value.truthy then value.elements else .ok []

structure CategoryItem where
  name : Json
  value : Json

structure RangeResponse where
  low : Json
  high : Json

structure TableResponse where
  totalCount : Int
  rows : List Json

structure TimeSeriesResponse where
  rows : List CategoryItem
  categories : Option (List Json)

namespace CategoryItem

def ofRow (row : Json) : Result CategoryItem := do
  let name ← row.field "name"
  let value ← row.field "value"
  return ⟨name, value⟩

def ofEntry (entry : Json) : Result CategoryItem := do
  let fields ← requireObject entry "category"
  ofRow (.object fields)

/-- The items of a response to a category request. -/
def ofPayload : Json → Result (List CategoryItem)
  | .list entries => entries.mapM ofEntry
  | _ => .error .expectedCategoryList

end CategoryItem

/-- The value of a response to a formula request, null if it has none. -/
def formulaOfPayload (payload : Json) : Result Json := do
  let fields ← requireObject payload "formula"
  return Json.fieldOf fields "value"

/-- The range of a selection; an empty one has none. -/
def RangeResponse.ofPayload (payload : Json) : Result (Option RangeResponse) :=
  if payload.isNull then .ok none
  else do
    let fields ← requireObject payload "range"
    let low ← (Json.object fields).field "min"
    let high ← (Json.object fields).field "max"
    return some ⟨low, high⟩

def TableResponse.ofPayload (payload : Json) : Result TableResponse := do
  let fields ← requireObject payload "table"
  let count ← ((Entries.get? fields "totalCount").getD (.int 0)).toWhole
  let rows ← elementsOrNone (Json.fieldOf fields "rows")
  return ⟨count, rows⟩

def TimeSeriesResponse.ofPayload (payload : Json) : Result TimeSeriesResponse := do
  let fields ← requireObject payload "time series"
  let authored := Json.fieldOf fields "categories"
  let entries ← elementsOrNone (Json.fieldOf fields "rows")
  let rows ← entries.mapM CategoryItem.ofRow
  let categories ← if authored.isNull then pure none else authored.elements.map some
  return ⟨rows, categories⟩

/-- The rows of a response to a request for features. -/
def featureRowsOfPayload (payload : Json) : Result (List Json) := do
  let fields ← requireObject payload "features"
  elementsOrNone (Json.fieldOf fields "rows")

def pairOfPayload (entry : Json) : Result (Float × Float) := do
  match ← entry.elements with
  | [x, y] =>
    let x ← x.toFloat
    let y ← y.toFloat
    return (x, y)
  | _ => throw .badValue

def scatterOfPayload (payload : Json) : Result (List (Float × Float)) := do
  (← elementsOrNone payload).mapM pairOfPayload

/-- The counts of a response to a histogram request. -/
def histogramOfPayload (payload : Json) : Result (List Float) := do
  (← elementsOrNone payload).mapM Json.toFloat

end MapLayers
