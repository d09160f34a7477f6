import MapLayers.Json.Access
import MapLayers.Json.Literal
import MapLayers.Json.Quantity

/-!
# Marker icons

An icon names an image with the size it is drawn at. Values of a column can have markers of their
own; all others share one.
-/

namespace MapLayers.Icon

def fallbackImage : String :=
  "data:image/svg+xml;charset=utf-8,"
  ++ "%3Csvg xmlns='http://www.w3.org/2000/svg' width='100' height='100' viewBox='0 0 100 100'%3E"
  ++ "%3Ccircle cx='50' cy='50' r='50'/%3E%3C/svg%3E"

/-- How the icons of a layer are drawn. -/
structure Style where
  size : Json
  masked : Bool

def make (style : Style) (url : Json) : Json :=
  .object
    [("id", .text (url.display ++ "@@" ++ style.size.display)),
      ("url", url),
      ("width", style.size),
      ("height", style.size),
      ("mask", .bool style.masked)]

/-- Values with their icons; of equal values the last one's icon counts. -/
abbrev Markers := List (Json × Json)

def setMarker (value icon : Json) : Markers → Markers
  | [] => [(value, icon)]
  | (other, old) :: rest =>
    if other.same value then (other, icon) :: rest else (other, old) :: setMarker value icon rest

/-- Adds the entries that name an image. -/
def addMarkers (style : Style) (markers : Markers) : List Json → Result Markers
  | [] => .ok markers
  | entry :: rest => do
    let url ← entry.lookup "markerUrl"
    if url.truthy then
      let value ← entry.lookup "value"
      if value.hashable then addMarkers style (setMarker value (make style url) markers) rest
      else throw .typeMismatch
    else addMarkers style markers rest

def markersOf (style : Style) (entries : Json) : Result Markers := do
  if entries.truthy then addMarkers style [] (← entries.elements) else return []

def pick (markers : Markers) (other value : Json) : Result Json :=
  if value.hashable then
    .ok (((markers.find? fun entry => entry.1.same value).map Prod.snd).getD other)
  else .error .typeMismatch

def defaultRadius : Int := 10

/-- The size that icons are drawn at: the end of the radius range if a column drives the radius, the
fixed radius otherwise, rounded up. -/
def largestSize (visConfig channels : Json) : Result Int := do
  let range ← visConfig.lookup "radiusRange"
  let radius ← visConfig.lookup "radius"
  let radius := if radius.isNull then .int defaultRadius else radius
  let radiusField ← channels.lookup "radiusField"
  let field ← if radiusField.truthy then pure radiusField else channels.lookup "sizeField"
  let size ← if range.truthy && field.truthy then range.item 1 else pure radius
  let n ← size.operand
  n.toInt Rat.ceil

end MapLayers.Icon
