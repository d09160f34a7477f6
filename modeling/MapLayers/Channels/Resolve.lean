import MapLayers.Channels.ByType
import MapLayers.Channels.Colors
import MapLayers.Channels.Labels
import MapLayers.Channels.Markers
import MapLayers.Channels.Sizes

/-!
# Resolution of all channels

The order of the steps decides which of two accessors stays under a shared prop such as the weight or
the point type.
-/

namespace MapLayers.Channels

def steps : List Step :=
  [color, typeSpecific, pointRadius, strokeColor, height, weight, markers, labels]

/-- The channel props of a layer. -/
def resolve (c : Context) : Result Props :=
  steps.foldlM (fun props step => step c props) []

/-- Reports the names of the resolved props. -/
def resolvedRecord (c : Context) (props : Props) : LogRecord :=
  let names := (props.keys).mergeSort fun a b => decide (a ≤ b)
  let shown := (Json.list (names.map .text)).literal
  ⟨.debug, .channels, s!"Layer {c.layer.id} resolved channel props: {shown}"⟩

end MapLayers.Channels
