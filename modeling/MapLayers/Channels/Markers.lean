import MapLayers.Channels.Basic

/-!
# Custom markers

Points can be drawn as icons. An icon takes the resolved radius as its size, the filling as its color if
it is a mask, and can be turned by a column.
-/

namespace MapLayers.Channels

/-- How the renderer loads the images of icons. -/
def iconLayerProps (size : Int) : PropValue :=
  let bitmap := PropValue.record
    [(.field "resizeWidth", .int size), (.field "resizeHeight", .int size),
      (.field "resizeQuality", .text "high")]
  .record [(.field "loadOptions", .record
    [(.field "image", .record [(.field "type", .text "imagebitmap")]),
      (.field "imagebitmap", bitmap)])]

/-- The filling that masked icons are drawn in. -/
def iconColor? (c : Context) (props : Props) : Option PropValue :=
  match Entries.get? props "getFillColor" with
  | some value => if value.isNull then none else some value
  | none =>
    let authored := Json.fieldOf c.style "getFillColor"
    if authored.isNull then none else some (.ofJson authored)

/-- Authored angles run counter-clockwise, those of icons clockwise. -/
def iconAngle (c : Context) (props : Props) : Result Props := do
  let field := c.channel "rotationField"
  if !field.truthy then return props
  let accessor ← Accessor.forSize .iconAngle ⟨field, .null, .null, .null⟩ c.data
  return put props "getIconAngle" (.accessor (.negated accessor))

def icons (c : Context) (props : Props) : Result Props := do
  let size ← Icon.largestSize c.layer.visConfig (.object c.layer.channels)
  let filled ← c.vis "filled"
  let masked := filled.truthy
  let props := putText props "pointType" "icon"
  let range ← c.vis "customMarkersRange"
  let fallback ← c.vis "customMarkersUrl"
  let icon ← Accessor.forIcon (c.channel "customMarkersField") range fallback
    ⟨.int size, masked⟩ c.data
  let props := put props "getIcon" (.accessor icon)
  let props := put props "_subLayerProps"
    (.record [(.field "points-icon", iconLayerProps size)])
  let props := match iconColor? c props with
    | some filling => if masked then put props "getIconColor" filling else props
    | none => props
  let props := match present? props "getPointRadius" with
    | some radius => put props "getIconSize" radius
    | none => props
  iconAngle c props

def markers : Step := fun c props => do
  let wanted ← c.vis "customMarkers"
  if wanted.truthy then icons c props
  else if c.layer.type = "point" ∨ c.layer.type = "tileset" then
    return putText props "pointType" "circle"
  else return props

end MapLayers.Channels
