import MapLayers.LayerType

/-!
# Style props

The props that follow from the configuration of a layer alone: those its table writes, a stroke in the
fill color when none is given, opacities in the last channel of the colors, and the highlight color.
-/

namespace MapLayers.Style

/-- Color props with the setting that holds their opacity. -/
def opacitySettings : List (String × String) :=
  [("getFillColor", "opacity"), ("getLineColor", "strokeOpacity"), ("getTextColor", "opacity")]

def flatHighlight : Json := .list [.int 252, .int 242, .int 26, .int 255]

def raisedHighlight : Json := .list [.int 255, .int 255, .int 255, .int 60]

/-- A stroke without a color of its own takes that of the filling. -/
def withStroke (props : Json.Fields) : Json.Fields :=
  if (Json.fieldOf props "stroked").truthy && !(Json.fieldOf props "getLineColor").truthy then
    Entries.set props "getLineColor" (Json.fieldOf props "getFillColor")
  else props

/-- The color with the opacity that its setting gives. -/
def withOpacity (vis : Json) (props : Json.Fields) (entry : String × String) :
    Result Json.Fields :=
  match Json.fieldOf props entry.1 with
  | .list channels => do
    let opacity ← vis.lookup entry.2
    let alpha ← Color.alphaOfOpacity opacity
    return Entries.set props entry.1 (.list (channels.take 3 ++ [.int alpha]))
  | _ => .ok props

def withOpacities (vis : Json) (props : Json.Fields) : Result Json.Fields :=
  opacitySettings.foldlM (withOpacity vis) props

/-- The style props of a configuration. -/
def props (config : Json.Fields) (table : PropTable) : Result Json.Fields := do
  let outcome := table.apply (.object config) []
  if let some fault := outcome.fault then throw fault
  let vis := Layer.visOf config
  let colored ← withOpacities vis (withStroke outcome.props)
  let raised ← vis.lookup "enable3d"
  return Entries.set colored "highlightColor"
    (if raised.truthy then raisedHighlight else flatHighlight)

end MapLayers.Style
