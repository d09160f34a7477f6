import MapLayers.AggregateColumn
import MapLayers.Channels.Basic

/-!
# Channels of single layer types

Points can take their altitude from a column. Clusters have a radius, a weight and a text that all
come from the column of aggregates.
-/

namespace MapLayers.Channels

def pointAltitude : Step := fun c props => do
  let columns := (c.setting "columns").orElse (.object [])
  let altitude ← columns.lookup "altitude"
  if !altitude.truthy then return props
  return put props "dataTransform" (.accessor (.altitude altitude))

/-- The radii of clusters when no range is authored. -/
def defaultRadii : Json := .list [.int Icon.defaultRadius, .int Icon.defaultRadius]

/-- The opacity of outlines around texts. -/
def outlineAlpha : Int := 64

/-- The first label, an empty object if there are none. -/
def firstLabel (labels : Json) : Result Json :=
  if labels.truthy then labels.item 0 else .ok (.object [])

def clusterLabelColors (label : Json) (props : Props) : Result Props := do
  let color ← label.lookup "color"
  let props := if color.isNull then props else putJson props "getTextColor" color
  let outline ← label.lookup "outlineColor"
  if outline.isNull then return props
  let channels ← outline.firstItems 3
  return putJson props "textOutlineColor" (.list (channels ++ [.int outlineAlpha]))

def clusters : Step := fun c props => do
  let column ← AggregateColumn.find (.text c.layer.type) c.dataset.provider c.dataset.resolvedSchema
  let range ← c.vis "radiusRange"
  let radii := range.orElse defaultRadii
  let hasText ← c.vis "isTextVisible"
  let props := putText props "pointType" (if hasText.truthy then "circle+text" else "circle")
  let level ← c.vis "clusterLevel"
  let props := putJson props "clusterLevel" level
  let props := put props "getWeight" (.accessor (.clusterWeight column))
  let props := put props "getPointRadius" (.accessor (.clusterRadius radii column))
  let props := withTextFace props
  let props := put props "getText" (.accessor (.clusterLabel column))
  let label ← firstLabel (c.setting "textLabel")
  let props ← clusterLabelColors label props
  let props := put props "textOutlineWidth" (.int 5)
  let props := putText props "textSizeUnits" "pixels"
  return put props "getTextSize" (.accessor (.clusterFont radii column))

def typeSpecific : Step := fun c props =>
  if c.layer.type = "point" then pointAltitude c props
  else if c.layer.type = "clusterTile" then clusters c props
  else .ok props

end MapLayers.Channels
