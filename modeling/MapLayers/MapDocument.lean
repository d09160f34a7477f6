import MapLayers.Json.Access

/-!
# Map documents

A map document holds its datasets and, under its map config of the one supported version, the
settings of the view and the layers. Only its outer structure is checked here; what is wrong with a
single layer or dataset concerns that one alone.
-/

namespace MapLayers

structure MapDocument where
  fields : Json.Fields
  config : Json.Fields
  visState : Json.Fields
  layers : List Json

namespace MapDocument

def supportedVersion : String := "v1"

/-- The settings of a document of the supported version. -/
def configOf (fields : Json.Fields) : Except DocumentFault Json.Fields :=
  match Json.fieldOf fields "keplerMapConfig" with
  | .object mapConfig =>
    let version := Json.fieldOf mapConfig "version"
    if !version.isTheText supportedVersion then .error (.version version)
    else
      match (Json.fieldOf mapConfig "config").orElse (.object []) with
      | .object config => .ok config
      | _ => .error .malformedConfig
  | _ => .error .noMapConfig

/-- The part with the layers; settings without that part hold them themselves. -/
def visStateOf (config : Json.Fields) : Except DocumentFault Json.Fields :=
  match Json.fieldOf config "visState" with
  | .null => .ok config
  | .object visState => .ok visState
  | _ => .error .malformedVisState

def layersOf (visState : Json.Fields) : Except DocumentFault (List Json) :=
  match (Json.fieldOf visState "layers").orElse (.list []) with
  | .list layers => .ok layers
  | _ => .error .malformedLayers

def ofFields (fields : Json.Fields) : Except DocumentFault MapDocument := do
  let config ← configOf fields
  let visState ← visStateOf config
  let layers ← layersOf visState
  return ⟨fields, config, visState, layers⟩

def field (d : MapDocument) (key : String) : Json := Json.fieldOf d.fields key

def setting (d : MapDocument) (key : String) : Json := Json.fieldOf d.config key

end MapDocument

end MapLayers
