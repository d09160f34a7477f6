import MapLayers.Files.Host
import MapLayers.Json.Access

/-!
# Payloads

The data of a dataset can be kept in a file of its own, named for the id of the dataset. Datasets that
have data already are left alone, and those without a file stay as they are.
-/

namespace MapLayers.Payload

variable {m : Type → Type} [Monad m] [MonadExceptOf Fault m] [Host m]

def suffixes : List String := [".json", ".geojson"]

/-- The files in which a payload may lie, in the order in which they are tried. -/
def candidates (directory : Path) (id : String) : List Path :=
  suffixes.map fun suffix => directory.child (id ++ suffix)

def firstThere : List Path → m (Option Path)
  | [] => return none
  | p :: rest => do
    if ← Files.isThere p then return some p else firstThere rest

/-- An entry of the dataset list with its payload. -/
def attachEntry [Platform] (directory : Path) (entry : Json) : m Json := do
  match entry with
  | .object fields =>
    if !(Json.fieldOf fields "data").isNull then return entry
    let id := (Json.fieldOf fields "id").display
    match ← firstThere (candidates directory id) with
    | none =>
      Files.record .debug .datasets s!"No payload file for dataset {id} in {directory.text}"
      return entry
    | some p =>
      let data ← Files.readJson p
      Files.record .info .datasets s!"Loaded dataset {id} from {p.text}"
      return .object (Entries.set fields "data" data)
  | _ => return entry

/-- A document with the payloads of its datasets; without a directory there are none. -/
def attach [Platform] (document : Json.Fields) (directory : Option Path) : m Json.Fields := do
  match directory, Json.fieldOf document "datasets" with
  | some directory, .list entries =>
    let attached ← entries.mapM (attachEntry directory)
    return Entries.set document "datasets" (.list attached)
  | _, _ => return document

end MapLayers.Payload
