import MapLayers.Dataset
import MapLayers.Props.Value

/-!
# Layers

An authored layer has an id, a type, a configuration and visual channels. A compiled one has props and
sometimes filters.
-/

namespace MapLayers

structure Layer where
  id : String
  type : String
  config : Json.Fields
  channels : Json.Fields

namespace Layer

def optionalObject (value : Json) (field : String) : Result Json.Fields :=
  match value with
  | .null => .ok []
  | .object fields => .ok fields
  | _ => .error (.expectedMapping field)

def ofFields (fields : Json.Fields) : Result Layer := do
  let id ← requireText (Json.fieldOf fields "id") "id"
  let type ← requireText (Json.fieldOf fields "type") "type"
  let config ← optionalObject (Json.fieldOf fields "config") "config"
  let channels ← optionalObject (Json.fieldOf fields "visualChannels") "visualChannels"
  return ⟨id, type, config, channels⟩

def dataId (l : Layer) : Json := Json.fieldOf l.config "dataId"

/-- The visual settings of a configuration, an empty object if there are none. -/
def visOf (config : Json.Fields) : Json := (Json.fieldOf config "visConfig").orElse (.object [])

def visConfig (l : Layer) : Json := visOf l.config

end Layer

/-- What the renderer is given for one layer. -/
structure LayerDescriptor where
  type : String
  props : Props
  filters : Json

namespace LayerDescriptor

def toValue (d : LayerDescriptor) : PropValue :=
  .descriptor (.text d.type) (.ofProps d.props) (.ofJson d.filters)

end LayerDescriptor

end MapLayers
