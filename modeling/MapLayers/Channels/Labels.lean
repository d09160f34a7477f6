import MapLayers.Channels.Basic

/-!
# Text labels

A layer has at most two labels. The first one is drawn by the renderer itself, the second one beside it
in the sub-layer of texts, which also keeps labels from colliding.
-/

namespace MapLayers.Channels

def maxLabels : Nat := 2

/-- Settings of the first label with the props that they become. -/
def labelProps : List (String × String) :=
  [("alignment", "getTextAlignmentBaseline"), ("anchor", "getTextAnchor"),
    ("color", "getTextColor"), ("outlineColor", "textOutlineColor"), ("size", "textSizeScale")]

/-- The settings of the first label that are there. -/
def labelSettings (label : Json) : List (String × String) → Props → Result Props
  | [], props => .ok props
  | (key, prop) :: rest, props => do
    let value ← label.lookup key
    labelSettings label rest (if value.isNull then props else putJson props prop value)

/-- The room that labels keep: the resolved radius, or else the fixed one as a scale. -/
def labelRoom (c : Context) (props : Props) : Result (PropKey × PropValue) :=
  match present? props "getPointRadius" with
  | some radius => .ok (.field "getRadius", radius)
  | none => do
    let radius ← c.vis "radius"
    let scale := if radius.isNull then .int Icon.defaultRadius else PropValue.ofJson radius
    return (.field "radiusScale", scale)

def secondaryLabel (c : Context) (label : Json) : Result (List (PropKey × PropValue)) := do
  let field ← label.lookup "field"
  if !field.truthy then return []
  let text ← Accessor.forLabel field c.data
  let color ← label.lookup "color"
  let size ← label.lookup "size"
  let outline ← label.lookup "outlineColor"
  return [(.field "getSecondaryText", .accessor text),
    (.field "getSecondaryColor", .ofJson color),
    (.field "secondarySizeScale", .ofJson size),
    (.field "secondaryOutlineColor", .ofJson outline)]

/-- The point type with texts added to it. -/
def withText (props : Props) : String :=
  match Entries.get? props "pointType" with
  | some (.text type) => type ++ "+text"
  | _ => "circle+text"

def subLayers (props : Props) : Entries PropKey PropValue :=
  match Entries.get? props "_subLayerProps" with
  | some value => value.fields
  | none => []

def mainLabel (c : Context) (main secondary : Json) (props : Props) : Result Props := do
  let props ← labelSettings main labelProps props
  let field ← main.field "field"
  let text ← Accessor.forLabel field c.data
  let props := put props "getText" (.accessor text)
  let props := putText props "pointType" (withText props)
  let props := withTextFace props
  let props := put props "textOutlineWidth" (.int 3)
  let room ← labelRoom c props
  let second ← secondaryLabel c secondary
  let texts := PropValue.record
    ([(.field "collisionEnabled", .bool true), (.field "collisionGroup", .text c.layer.id), room]
      ++ second)
  return put props "_subLayerProps"
    (.record (Entries.set (subLayers props) (.field "points-text") texts))

def labels : Step := fun c props => do
  let authored := c.setting "textLabel"
  let all ← if authored.truthy then authored.elements else pure []
  match all.take maxLabels with
  | [] => return props
  | main :: others =>
    let field ← main.lookup "field"
    if !field.truthy then return props
    mainLabel c main (others.head?.getD (.object [])) props

end MapLayers.Channels
