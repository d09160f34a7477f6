import MapLayers.Channels.Basic
import MapLayers.LayerType

/-!
# Color channels
-/

namespace MapLayers.Channels

/-- Whether the renderer can aggregate by itself. -/
def isRendererAggregation (value : Json) : Result Bool :=
  Dataset.isAmong (rendererAggregations.map Prod.fst) value

/-- Grids and hexagons: a weight that the renderer aggregates, or the aggregate of a whole bin. -/
def aggregatedColor : Step := fun c props => do
  let field := c.channel "colorField"
  let props := putJson props "colorScaleType" (c.channel "colorScale")
  if !field.truthy then return props
  let aggregation ← c.vis "colorAggregation"
  if ← isRendererAggregation aggregation then
    let name ← field.field "name"
    return put props "getColorWeight" (.accessor (.weight name))
  else
    let accessor ← Accessor.forBin field aggregation
    return put props "getColorValue" (.accessor accessor)

def fillColor : Step := fun c props => do
  let field := c.channel "colorField"
  if !field.truthy then return props
  let aggregation ← c.vis "colorAggregation"
  let colorRange ← c.vis "colorRange"
  let opacity ← c.vis "opacity"
  let accessor ← Accessor.forColor .fillColor
    ⟨field, c.channel "colorScale", aggregation, colorRange, opacity⟩ c.data
  return put props "getFillColor" (.accessor accessor)

/-- The opacity of strokes: their own, else that of the filling for points and full for others. -/
def strokeOpacity (c : Context) : Result Json := do
  let fallback ← if c.layer.type = "point" then c.vis "opacity" else pure (.int 1)
  let opacity ← c.vis "strokeOpacity"
  return if opacity.isNull then fallback else opacity

def strokeColor : Step := fun c props => do
  let field := c.channel "strokeColorField"
  if !field.truthy then return props
  let opacity ← strokeOpacity c
  let aggregation ← c.vis "strokeColorAggregation"
  let colorRange ← c.vis "strokeColorRange"
  let accessor ← Accessor.forColor .lineColor
    ⟨field, c.channel "strokeColorScale", aggregation, colorRange, opacity⟩ c.data
  return put props "getLineColor" (.accessor accessor)

def color : Step := fun c props =>
  if c.layer.type = "grid" ∨ c.layer.type = "hexagon" then aggregatedColor c props
  else fillColor c props

end MapLayers.Channels
