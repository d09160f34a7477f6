import MapLayers.Json.Literal
import MapLayers.Row
import MapLayers.Scale
import MapLayers.Search
import MapLayers.Statistics

/-!
# Domains of columns

The domain of a scale is derived from the loaded data: the distinct values by falling frequency, all
numbers in order, or the smallest and the largest number. Tiled data carries statistics to read them
from.
-/

namespace MapLayers.Domain

/-- What a scale needs to know of a column. -/
inductive Shape where
  | categories
  | numbers
  | positiveExtent
  | extent
  deriving DecidableEq, Repr

def Shape.ofKind : ScaleKind → Shape
  | .ordinal | .point => .categories
  | .quantile => .numbers
  | .log => .positiveExtent
  | _ => .extent

/-- The shape for a scale named in a document; unknown scales need the extent. -/
def Shape.ofJson : Json → Shape
  | .text s => ((ScaleKind.ofName? s).map ofKind).getD .extent
  | _ => .extent

/-- The statistics of a column among the attributes of a tile set. -/
def attribute? (data : Json.Fields) (name : Json) : Result (Option Json) := do
  let statistics := (Json.fieldOf data "tilestats").orElse (.object [])
  let layers ← statistics.lookup "layers"
  if !layers.truthy then return none
  let first ← layers.item 0
  let attributes ← first.lookup "attributes"
  if !attributes.truthy then return none
  search (← attributes.elements)
where
  search : List Json → Result (Option Json)
    | [] => .ok none
    | entry :: rest => do
      let found ← entry.lookup "attribute"
      if found.same name then return some entry else search rest

def ofStatistics (column : Json) (shape : Shape) : Result (List Json) := do
  let categories ← column.lookup "categories"
  if shape = .categories && categories.truthy then
    (← categories.elements).mapM fun entry => entry.lookup "category"
  else
    let low ← column.lookup "min"
    let high ← column.lookup "max"
    return [low, high]

/-- Categories come by falling frequency, then numbers before texts, each ascending. -/
def precedes (a b : Json × Nat) : Bool :=
  if a.2 ≠ b.2 then b.2 < a.2
  else
    match a.1.number?, b.1.number? with
    | some m, some n => m.less n
    | some _, none => true
    | none, some _ => false
    | none, none => a.1.display < b.1.display

def categories (values : List Json) : Result (List Json) := do
  let counts ← Tally.ofList (values.filter fun v => !v.isNull)
  return (insertionSort precedes counts).map Prod.fst

def logFloor : Float := 1e-5

def extent (positive : Bool) (numbers : List Number) : List Json :=
  match Statistics.smallest numbers, Statistics.largest numbers with
  | some low, some high =>
    let low := if positive && low.same (.int 0) then .float logFloor else low
    [.ofNumber low, .ofNumber high]
  | _, _ => []

def ofValues (values : List Json) (shape : Shape) : Result (List Json) :=
  match shape with
  | .categories => categories values
  | .numbers => do
    let numbers ← Statistics.numbers values
    return (Statistics.ascending numbers).map .ofNumber
  | .positiveExtent => do
    let numbers ← Statistics.numbers values
    return extent true numbers
  | .extent => do
    let numbers ← Statistics.numbers values
    return extent false numbers

def ofData (data name : Json) (shape : Shape) : Result (List Json) := do
  match data with
  | .object fields =>
    if Entries.has fields "tilestats" then
      match ← attribute? fields name with
      | some column => ofStatistics column shape
      | none => return []
    else ofValues (← Row.columnValues data name) shape
  | _ => ofValues (← Row.columnValues data name) shape

end MapLayers.Domain
