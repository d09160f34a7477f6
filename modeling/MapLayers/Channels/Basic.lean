import MapLayers.Layer

/-!
# Visual channels of a layer

Visual channels let columns of the data drive props of a layer. They are resolved in steps that all
extend one set of props; a later step may read what an earlier one has left.
-/

namespace MapLayers.Channels

/-- What every step reads from. -/
structure Context where
  layer : Layer
  dataset : Dataset
  style : Json.Fields

namespace Context

variable (c : Context)

def data : Json := c.dataset.data

def channel (key : String) : Json := Json.fieldOf c.layer.channels key

def setting (key : String) : Json := Json.fieldOf c.layer.config key

def vis (key : String) : Result Json := c.layer.visConfig.lookup key

/-- The first of two channels that is there. -/
def firstChannel (key other : String) : Json := (c.channel key).orElse (c.channel other)

/-- The first of two visual settings that is there; the second is looked up only if needed. -/
def firstVis (key other : String) : Result Json := do
  let value ← c.vis key
  if value.truthy then return value else c.vis other

end Context

abbrev Step := Context → Props → Result Props

def put (props : Props) (key : String) (value : PropValue) : Props := Entries.set props key value

def putJson (props : Props) (key : String) (value : Json) : Props :=
  put props key (.ofJson value)

def putText (props : Props) (key : String) (value : String) : Props := put props key (.text value)

/-- A prop that is neither absent nor null. -/
def present? (props : Props) (key : String) : Option PropValue :=
  match Entries.get? props key with
  | some value => if value.isNull then none else some value
  | none => none

/-- The face of texts that the renderer draws. -/
def withTextFace (props : Props) : Props :=
  let props := putText props "textCharacterSet" "auto"
  let props := putText props "textFontFamily" "Inter, sans"
  let props := put props "textFontSettings" (.record [(.field "sdf", .bool true)])
  put props "textFontWeight" (.int 600)

end MapLayers.Channels
