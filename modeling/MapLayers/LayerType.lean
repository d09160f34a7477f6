import MapLayers.Layer
import MapLayers.Props.Table

/-!
# Layer types

Every layer type has a table that turns its configuration into style props, and props that it starts
with. The tables of the types extend one that all types share.
-/

namespace MapLayers

open PropRule (rename transform nested)

/-- Aggregations that the renderer computes itself, by the names of a document. -/
def rendererAggregations : List (String × String) :=
  [("average", "MEAN"), ("maximum", "MAX"), ("minimum", "MIN"), ("sum", "SUM")]

inductive LayerType where
  | point
  | tileset
  | mvt
  | grid
  | hexagon
  | hexagonId
  | quadbin
  | heatmapTile
  | clusterTile
  deriving DecidableEq, Repr

namespace LayerType

def all : List LayerType :=
  [point, tileset, mvt, grid, hexagon, hexagonId, quadbin, heatmapTile, clusterTile]

def name : LayerType → String
  | point => "point"
  | tileset => "tileset"
  | mvt => "mvt"
  | grid => "grid"
  | hexagon => "hexagon"
  | hexagonId => "hexagonId"
  | quadbin => "quadbin"
  | heatmapTile => "heatmapTile"
  | clusterTile => "clusterTile"

def ofJson (value : Json) : Result LayerType :=
  if !value.hashable then .error .typeMismatch
  else
    match all.find? fun t => value.isTheText t.name with
    | some t => .ok t
    | none => .error (.unsupportedLayerType value)

def field (key : String) (rule : PropRule) : PropKey × PropRule := (.field key, rule)

def position (index : Nat) (rule : PropRule) : PropKey × PropRule := (.position index, rule)

def sharedTable : PropTable :=
  [field "color" (rename "getFillColor"),
    field "isVisible" (rename "visible"),
    field "label" (rename "cartoLabel"),
    field "textLabel" (nested
      [position 0 (nested
        [field "alignment" (rename "getTextAlignmentBaseline"),
          field "anchor" (rename "getTextAnchor"),
          field "color" (rename "getTextColor"),
          field "size" (rename "getTextSize")])]),
    field "visConfig" (nested
      [field "enable3d" (rename "extruded"),
        field "elevationScale" (rename "elevationScale"),
        field "filled" (rename "filled"),
        field "strokeColor" (rename "getLineColor"),
        field "stroked" (rename "stroked"),
        field "thickness" (rename "getLineWidth"),
        field "radius" (rename "getPointRadius"),
        field "wireframe" (rename "wireframe")])]

def markerTable : PropTable :=
  [field "color" (rename "getIconColor"),
    field "visConfig" (nested [field "radius" (rename "getIconSize")])]

def colorRange (value : Json) : Result Json.Fields := do
  let colors ← value.lookup "colors"
  let colors ← if colors.truthy then colors.elements else pure []
  let parsed ← colors.mapM Color.ofJson
  return [("colorRange", .list (parsed.map Color.toJson))]

/-- The renderer's name of an aggregation; all that it does not know are sums. -/
def colorAggregation (value : Json) : Result Json.Fields :=
  if !value.hashable then .error .typeMismatch
  else
    let found := rendererAggregations.find? fun entry => value.isTheText entry.1
    .ok [("colorAggregation", .text ((found.map Prod.snd).getD "SUM"))]

/-- A length in kilometers as meters under the given name; repeatable values are repeated. -/
def inMeters (prop : String) (value : Json) : Result Json.Fields := do
  let meters ← match value with
    | .text s => pure (.text (String.ofList (List.replicate 1000 s.toList).flatten))
    | .list items => pure (.list (List.replicate 1000 items).flatten)
    | _ =>
      let n ← value.operand
      let product ← (Number.int 1000).mul n
      pure (Json.ofNumber product)
  return [(prop, meters)]

def depthParameters (altitude : Json) : Result Json.Fields :=
  .ok [("parameters", .object [("depthWriteEnabled", .bool altitude.truthy)])]

def aggregationTable : PropTable :=
  [field "colorAggregation" (transform colorAggregation),
    field "colorRange" (transform colorRange),
    field "coverage" (rename "coverage"),
    field "elevationPercentile" (nested
      [position 0 (rename "elevationLowerPercentile"),
        position 1 (rename "elevationUpperPercentile")]),
    field "percentile" (nested
      [position 0 (rename "lowerPercentile"), position 1 (rename "upperPercentile")])]

/-- The table of the aggregated layers, with their cell size under the given prop. -/
def cellTable (prop : String) : PropTable :=
  [field "visConfig" (nested
    (aggregationTable ++ [field "worldUnitSize" (transform (inMeters prop))]))]

def coverageTable : PropTable :=
  [field "visConfig" (nested [field "coverage" (rename "coverage")])]

/-- The rules that a layer type adds to the shared ones. -/
def ownTable : LayerType → PropTable
  | point =>
    [field "columns" (nested [field "altitude" (transform depthParameters)]),
      field "visConfig" (nested [field "outline" (rename "stroked")])]
  | tileset | mvt | clusterTile => []
  | grid => cellTable "cellSize"
  | hexagon => cellTable "radius"
  | hexagonId | quadbin => coverageTable
  | heatmapTile =>
    [field "visConfig" (nested
      [field "colorRange" (transform colorRange), field "radius" (rename "radiusPixels")])]

/-- The table for a layer, with or without custom markers. -/
def table (type : LayerType) (markers : Bool) : PropTable :=
  let base := if markers then PropTable.merge sharedTable markerTable else sharedTable
  PropTable.merge base type.ownTable

def sharedProps : Props :=
  [("lineMiterLimit", .int 2), ("lineWidthUnits", .text "pixels"),
    ("pointRadiusUnits", .text "pixels"), ("rounded", .bool true), ("wrapLongitude", .bool false)]

/-- The prop of a spatial index, with the column key and the default column that it reads. -/
def indexProp : LayerType → Option (String × String × String)
  | hexagonId => some ("getHexagon", "hex_id", "h3")
  | quadbin => some ("getQuadbin", "quadbin", "quadbin")
  | _ => none

def indexProps (type : LayerType) (config : Json.Fields) (dataset : Dataset) : Result Props :=
  match type.indexProp with
  | none => .ok []
  | some (prop, key, fallback) => do
    let columns := (Json.fieldOf config "columns").orElse (.object [])
    let column ← columns.lookup key
    let reader := Accessor.column (column.orElse (.text fallback)) (Row.isFeatureData dataset.data)
    return [(prop, .accessor reader)]

def firstProps (type : LayerType) (config : Json.Fields) (dataset : Dataset) : Result Props := do
  let own ← indexProps type config dataset
  return Entries.overlay sharedProps own

/-- Whether the points of a layer are drawn as markers of their own. -/
def hasMarkers (config : Json.Fields) : Result Bool := do
  let markers ← (Layer.visOf config).lookup "customMarkers"
  return markers.truthy

def propsFor (type : Json) (config : Json.Fields) (dataset : Dataset) :
    Result (PropTable × Props) := do
  let type ← ofJson type
  let markers ← hasMarkers config
  let first ← type.firstProps config dataset
  return (type.table markers, first)

end LayerType

end MapLayers
