import MapLayers.Json.Access
import MapLayers.Log
import MapLayers.Text.Blank

/-!
# Datasets

A dataset is a data source that layers refer to by its id. Its data is a list of rows, a collection of
features, or a description of tiles with statistics. Malformed entries of a document can be left out
with a warning.
-/

namespace MapLayers

def requireText (value : Json) (field : String) : Result String :=
  match value with
  | .text s => if Text.isBlankText s then .error (.expectedText field) else .ok s
  | _ => .error (.expectedText field)

structure Dataset where
  id : String
  provider : Json
  type : Json
  data : Json
  schema : Json

namespace Dataset

def hasData (d : Dataset) : Bool := !d.data.isNull

/-- The schema, or else the one that comes with the data. -/
def resolvedSchema (d : Dataset) : Json :=
  if !d.schema.isNull then d.schema
  else
    match d.data with
    | .object fields =>
      match Json.fieldOf fields "schema" with
      | .list columns => .list columns
      | _ => .null
    | _ => .null

def ofFields (fields : Json.Fields) : Result Dataset := do
  let schema := Json.fieldOf fields "schema"
  if !schema.isNull && !schema.isList then throw .expectedSchemaList
  let id ← requireText (Json.fieldOf fields "id") "id"
  return ⟨id, Json.fieldOf fields "providerId", Json.fieldOf fields "type",
    Json.fieldOf fields "data", schema⟩

def ofEntry (position : Nat) : Json → Result Dataset
  | .object fields => ofFields fields
  | _ => .error (.expectedDataset position)

/-- All entries from a position on; the first malformed one is a failure. -/
def ofEntries (position : Nat) : List Json → Result (List Dataset)
  | [] => .ok []
  | entry :: rest => do
    let dataset ← ofEntry position entry
    let others ← ofEntries (position + 1) rest
    return dataset :: others

def warn (message : String) : LogRecord := ⟨.warning, .datasets, message⟩

/-- The well-formed entries from a position on, with a warning for every malformed one. Faults that are
not about the entry's values are passed on. -/
def wellFormed (position : Nat) : List Json → Result (List Dataset × Log)
  | [] => .ok ([], [])
  | entry :: rest =>
    match ofEntry position entry with
    | .ok dataset => do
      let (datasets, log) ← wellFormed (position + 1) rest
      return (dataset :: datasets, log)
    | .error fault => do
      if fault.kind ≠ .value then throw fault
      let (datasets, log) ← wellFormed (position + 1) rest
      return (datasets, warn s!"Skipping datasets[{position}]: {fault.text}" :: log)

/-- The datasets of a document, all of which have to be well-formed. -/
def load : Json → Result (List Dataset)
  | .null => .ok []
  | .list entries => ofEntries 0 entries
  | _ => .error .expectedDatasetList

def loadWellFormed : Json → Result (List Dataset × Log)
  | .null => .ok ([], [])
  | .list entries => wellFormed 0 entries
  | value => .ok ([], [warn s!"Ignoring 'datasets': expected list, got {value.typeName}"])

def find? (datasets : List Dataset) (id : Json) : Option Dataset :=
  datasets.find? fun d => id.isTheText d.id

def isAmong (names : List String) (value : Json) : Result Bool :=
  if value.hashable then .ok (names.any value.isTheText) else .error .typeMismatch

/-- Whether the data service can evaluate filters: it cannot for tiles that are made in advance, and
for some providers. -/
def isFilteredRemotely (d : Dataset) : Result Bool := do
  if ← isAmong ["tileset", "raster"] d.type then return false
  if ← isAmong ["databricks"] d.provider then return false
  return true

end Dataset

end MapLayers
