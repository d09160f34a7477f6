import MapLayers.Channels.Basic

/-!
# Size channels
-/

namespace MapLayers.Channels

def pointRadius : Step := fun c props => do
  let field := c.firstChannel "radiusField" "sizeField"
  if !field.truthy then return props
  let scale := c.firstChannel "radiusScale" "sizeScale"
  let aggregation ← c.vis "sizeAggregation"
  let range ← c.firstVis "radiusRange" "sizeRange"
  let accessor ← Accessor.forSize .pointRadius ⟨field, scale, aggregation, range⟩ c.data
  return put props "getPointRadius" (.accessor accessor)

/-- The channel and the scale that drive heights: those of the size for hexagons by id. -/
def heightChannel (c : Context) : Json × Json :=
  if c.layer.type = "hexagonId" then (c.channel "sizeField", c.channel "sizeScale")
  else (c.channel "heightField", c.channel "heightScale")

def height : Step := fun c props => do
  let (field, scale) := heightChannel c
  if !field.truthy then return props
  let raised ← c.vis "enable3d"
  if !raised.truthy then return props
  let aggregation ← c.vis "heightAggregation"
  let range ← c.firstVis "heightRange" "sizeRange"
  let accessor ← Accessor.forSize .elevation ⟨field, scale, aggregation, range⟩ c.data
  return put props "getElevation" (.accessor accessor)

def weight : Step := fun c props => do
  let field := c.channel "weightField"
  if !field.truthy then return props
  let aggregation ← c.vis "weightAggregation"
  let accessor ← Accessor.forSize .weight ⟨field, .null, aggregation, .null⟩ c.data
  return put props "getWeight" (.accessor accessor)

end MapLayers.Channels
