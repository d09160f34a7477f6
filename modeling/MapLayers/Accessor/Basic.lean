import MapLayers.Accessor.Altitude
import MapLayers.Accessor.Cluster
import MapLayers.Accessor.Icon
import MapLayers.Accessor.Reader
import MapLayers.Accessor.TextFormat
import MapLayers.Domain
import MapLayers.Label

/-!
# Accessors

An accessor computes a prop of the renderer from a row of the data. It is plain data itself: `call`
gives its value, and what it keeps from one call to the next is handed through.
-/

namespace MapLayers

/-- What an accessor keeps from its earlier calls: the name that its reader has settled on, and the
breaks that its scale has computed. -/
structure Kept where
  name : Option Json
  breaks : Option (List Number)

def Kept.nothing : Kept := ⟨none, none⟩

inductive Accessor where
  /-- The color of a column value on a scale. -/
  | color (reader : Reader) (scale : Scale) (alpha : Int) (features : Bool)
  /-- A size or any other value on a scale. -/
  | size (reader : Reader) (scale : Scale) (features : Bool)
  | label (column : Json) (format : TextFormat) (features : Bool)
  | icon (column : Json) (markers : Icon.Markers) (other : Json) (features : Bool)
  | constant (value : Json)
  /-- A column of a row in the form of the data. -/
  | column (name : Json) (features : Bool)
  /-- A column of a row in any form. -/
  | weight (name : Json)
  /-- An aggregate over the rows of a bin. -/
  | bin (name : Json) (aggregation : Statistics.Aggregation)
  | negated (inner : Accessor)
  | clusterRadius (radii : Json) (column : String)
  | clusterWeight (column : String)
  | clusterLabel (column : String)
  | clusterFont (radii : Json) (column : String)
  /-- Lifts the points of whole data. -/
  | altitude (column : Json)

namespace Accessor

def columns (features : Bool) (row : Json) : Result Json :=
  if features then Row.properties row else .ok row

def radiusOfCluster (radii : Json) (column : String) (row info : Json) : Result Json := do
  let data ← info.field "data"
  let attributes ← data.field "attributes"
  let statistics ← attributes.field "stats"
  let properties ← row.field "properties"
  Cluster.radiusOf properties statistics radii (.text column)

def clusterColumn (column : String) (row : Json) : Result Json := do
  let properties ← row.field "properties"
  properties.lookup column

def colorOfShade (alpha : Int) (value shade : Json) : Result Json := do
  let color ← Color.ofJson shade
  let opaqueness := if value.isNull then 0 else alpha
  return Color.toJson ⟨color.red, color.green, color.blue, opaqueness⟩

def labelOfRow (column : Json) (format : TextFormat) (columns : Json) : Result Json := do
  let value ← columns.lookupBy column
  if value.isNull then return .text ""
  else (format.label value).map .text

def readScaled (reader : Reader) (scale : Scale) (features : Bool) (row : Json) (kept : Kept)
    (rule : Json → Json → Result Json) : Result Json × Kept :=
  match columns features row with
  | .error fault => (.error fault, kept)
  | .ok found =>
    match reader.read kept.name found with
    | (.error fault, name) => (.error fault, ⟨name, kept.breaks⟩)
    | (.ok value, name) =>
      let scale := scale.keeping kept.breaks
      ((scale.value value).bind (rule value), ⟨name, (scale.afterCall value).keptBreaks⟩)

/-- The value for a row, with more information about it if the caller has any. -/
def callWith (row : Json) (info : Option Json) (kept : Kept) : Accessor → Result Json × Kept
  | color reader scale alpha features =>
    readScaled reader scale features row kept (colorOfShade alpha)
  | size reader scale features => readScaled reader scale features row kept fun _ size => .ok size
  | label name format features =>
    ((columns features row).bind (labelOfRow name format), kept)
  | icon name markers other features =>
    ((columns features row).bind fun found => do
      let value ← found.lookupBy name
      Icon.pick markers other value, kept)
  | constant value => (.ok value, kept)
  | column name features => ((columns features row).bind fun found => found.lookupBy name, kept)
  | weight name => (Row.column name row, kept)
  | bin name aggregation =>
    (do
      let points ← row.elements
      let values ← points.mapM (Row.column name)
      aggregation.apply values, kept)
  | negated inner =>
    let (value, kept) := callWith row info kept inner
    (value.bind Json.negated, kept)
  | clusterRadius radii name =>
    match info with
    | some info => (radiusOfCluster radii name row info, kept)
    | none => (.error .typeMismatch, kept)
  | clusterWeight name => (clusterColumn name row, kept)
  | clusterLabel name =>
    ((clusterColumn name row).bind fun value => (Label.ofJson value).map .text, kept)
  | clusterFont radii name =>
    match info with
    | some info => ((radiusOfCluster radii name row info).bind Cluster.fontSizeOf, kept)
    | none => (.error .typeMismatch, kept)
  | altitude name =>
    match info with
    | some _ => (.error .typeMismatch, kept)
    | none => (Altitude.transform name row, kept)

def call (a : Accessor) (args : List Json) (kept : Kept) : Result Json × Kept :=
  match args with
  | [row] => a.callWith row none kept
  | [row, info] => a.callWith row (some info) kept
  | _ => (.error .typeMismatch, kept)

def outcomes (a : Accessor) (kept : Kept) : List (List Json) → List (Result Json)
  | [] => []
  | args :: rest =>
    let (value, kept) := a.call args kept
    value :: a.outcomes kept rest

def channel? : Accessor → Option Channel
  | color reader _ _ _ | size reader _ _ => some reader.channel
  | negated inner => inner.channel?
  | _ => none

def unknownColor : Json := .text "#868d91"

def defaultColorScale : Json := .text "quantize"

def colorScale (name kind colorRange data : Json) : Result Scale := do
  let scaleKind ← ScaleKind.ofJson kind
  let scale := Scale.new scaleKind
  if scaleKind = .identity then return scale.withUnknown unknownColor
  let ranges := colorRange.orElse (.object [])
  let (domain, colors) ← match ← ranges.lookup "colorMap" with
    | .list (first :: rest) => do
      let domain ← (first :: rest).mapM fun entry => entry.item 0
      let colors ← (first :: rest).mapM fun entry => entry.item 1
      pure (domain, colors)
    | _ => do
      let domain ← Domain.ofData data name (.ofKind scaleKind)
      let listed ← ranges.lookup "colors"
      let colors ← if listed.truthy then listed.elements else pure []
      pure (domain, colors)
  let domain := if scaleKind = .ordinal then domain.take colors.length else domain
  return ((scale.withDomain domain).withRange colors).withUnknown unknownColor

/-- What a color channel is made from. -/
structure ColorSpec where
  field : Json
  scale : Json
  aggregation : Json
  colorRange : Json
  opacity : Json

def forColor (channel : Channel) (spec : ColorSpec) (data : Json) : Result Accessor := do
  let name ← spec.field.field "name"
  let colorColumn ← spec.field.lookup "colorColumn"
  let scale ← colorScale (colorColumn.orElse name) (spec.scale.orElse defaultColorScale)
    spec.colorRange data
  let alpha ← Color.alphaOfOpacity spec.opacity
  let reader ← Reader.new channel name spec.aggregation
  return color reader scale alpha (Row.isFeatureData data)

structure SizeSpec where
  field : Json
  scale : Json
  aggregation : Json
  range : Json

def sizeScale (name : Json) (spec : SizeSpec) (data : Json) : Result Scale :=
  if spec.scale.truthy then do
    let kind ← ScaleKind.ofJson spec.scale
    let scale := Scale.new kind
    let scale ← if spec.aggregation.isTheText "count" then pure scale
      else do
        let domain ← Domain.ofData data name (.ofKind kind)
        pure (scale.withDomain domain)
    let entries ← Scale.rangeEntries spec.range
    return scale.withRange entries
  else .ok (Scale.new .identity)

def forSize (channel : Channel) (spec : SizeSpec) (data : Json) : Result Accessor := do
  let name ← spec.field.field "name"
  let scale ← sizeScale name spec data
  let reader ← Reader.new channel name spec.aggregation
  return size reader scale (Row.isFeatureData data)

def forLabel (field data : Json) : Result Accessor := do
  let name ← field.field "name"
  let type ← field.lookup "type"
  let format ← TextFormat.ofJson type
  return label name format (Row.isFeatureData data)

def otherImage (fallback markersRange : Json) : Result Json := do
  let url := fallback.orElse (.text Icon.fallbackImage)
  if markersRange.truthy then
    let others ← markersRange.lookup "othersMarker"
    return others.orElse url
  else return url

def forIcon (field markersRange fallback : Json) (style : Icon.Style) (data : Json) :
    Result Accessor := do
  let url ← otherImage fallback markersRange
  let other := Icon.make style url
  if !markersRange.truthy || !field.truthy then return constant other
  let entries ← markersRange.lookup "markerMap"
  let markers ← Icon.markersOf style entries
  let name ← field.field "name"
  return icon name markers other (Row.isFeatureData data)

def forBin (field aggregation : Json) : Result Accessor := do
  let name ← field.field "name"
  let aggregation ← Statistics.Aggregation.ofJson aggregation
  return bin name aggregation

end Accessor

end MapLayers
