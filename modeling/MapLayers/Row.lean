import MapLayers.Json.Access

/-!
# Rows

A row of tabular data holds its columns itself. A feature holds them under `properties`, and a picked
object may wrap the feature it came from.
-/

namespace MapLayers.Row

/-- The object inside a picked row, or null. -/
def wrappedProperties (source : Json.Fields) : Result Json :=
  match Entries.get? source "object" with
  | none => .ok (.object [])
  | some inner =>
    match inner with
    | .object fields => .ok ((Entries.get? fields "properties").getD (.object []))
    | _ => .error .noMember

def properties (row : Json) : Result Json :=
  match row with
  | .object fields =>
    match Json.fieldOf fields "properties" with
    | .object inner => .ok (.object inner)
    | _ =>
      match Json.fieldOf fields "__source" with
      | .object source => wrappedProperties source
      | _ => .ok row
  | _ => .ok row

/-- Whether data consists of features, in one document or in tiles. -/
def isFeatureData : Json → Bool
  | .object fields =>
    Entries.has fields "features" || Entries.has fields "tilestats" || Entries.has fields "tiles"
  | _ => false

def column (name row : Json) : Result Json := do
  let columns ← properties row
  columns.lookupBy name

/-- The values of a column in all rows of the data; entries that are no rows have none. -/
def columnValues (data name : Json) : Result (List Json) :=
  match data with
  | .object fields =>
    match Json.fieldOf fields "features" with
    | .list features => features.mapM (column name)
    | _ => .ok []
  | .list rows => (rows.filter Json.isObject).mapM fun row => row.lookupBy name
  | _ => .ok []

end MapLayers.Row
