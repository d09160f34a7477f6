import MapLayers.Json.Access

/-!
# The column of aggregates

Layers that aggregate their rows read the aggregate from a column of a fixed name, in whatever case the
data source writes it.
-/

namespace MapLayers.AggregateColumn

def defaultName : String := "__aggregationValue"

def layerTypes : List String := ["clusterTile", "hexagonId", "quadbin", "heatmapTile"]

def nameFor (provider : Json) : String :=
  if provider.isTheText "snowflake" then defaultName.toUpper else defaultName

/-- Equality of names up to the case of ASCII letters. No other letter folds into one of the name
that is sought. -/
def sameUpToCase (a b : String) : Bool := a.toLower = b.toLower

/-- The first column of a schema with the name in any case. -/
def search (name : String) : List Json → Result String
  | [] => .ok name
  | column :: rest => do
    match ← column.lookup "name" with
    | .text found => if sameUpToCase found name then return found else search name rest
    | _ => search name rest

/-- The column of aggregates of a layer. -/
def find (layerType provider schema : Json) : Result String :=
  let name := nameFor provider
  if !schema.truthy then .ok name
  else if !layerType.hashable then .error .typeMismatch
  else if layerTypes.any layerType.isTheText then do search name (← schema.elements)
  else .ok name

end MapLayers.AggregateColumn
