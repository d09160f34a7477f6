import MapLayers.Json.Access
import MapLayers.Json.Literal

/-!
# Blending, interaction and loading

The parts of a layer's props that come from the map as a whole: how layers blend, whether they can be
picked, and how their data is fetched.
-/

namespace MapLayers.Blending

def additive : Json.Fields :=
  [("blendColorSrcFactor", .text "src-alpha"), ("blendColorDstFactor", .text "dst-alpha"),
    ("blendColorOperation", .text "add"), ("blendAlphaSrcFactor", .text "src-alpha"),
    ("blendAlphaDstFactor", .text "dst-alpha"), ("blendAlphaOperation", .text "add")]

def subtractive : Json.Fields :=
  [("blendColorSrcFactor", .text "one"), ("blendColorDstFactor", .text "one-minus-dst-color"),
    ("blendColorOperation", .text "subtract"), ("blendAlphaSrcFactor", .text "src-alpha"),
    ("blendAlphaDstFactor", .text "dst-alpha"), ("blendAlphaOperation", .text "add")]

/-- The parameters of a blend mode; all modes but two have none. -/
def mode (blending : Json) : Result Json.Fields :=
  if !blending.truthy then .ok []
  else if !blending.hashable then .error .typeMismatch
  else if blending.isTheText "additive" then .ok additive
  else if blending.isTheText "subtractive" then .ok subtractive
  else .ok []

/-- The parameters with those of the blend mode over them; no field when there are none. -/
def parametersProp (blending parameters : Json) : Result Json.Fields := do
  let own ← if parameters.truthy then parameters.asFields else pure []
  let merged := Entries.overlay own (← mode blending)
  return if merged.isEmpty then [] else [("parameters", .object merged)]

/-- A layer can be picked when tooltips are on. -/
def interactionProps (interaction : Json) : Result Json.Fields := do
  let tooltip ← (interaction.orElse (.object [])).lookup "tooltip"
  let enabled ← (tooltip.orElse (.object [])).lookup "enabled"
  return [("autoHighlight", .bool enabled.truthy), ("pickable", .bool enabled.truthy)]

def loadOptions (token : Json) : Json.Fields :=
  let headers := Json.object [("Authorization", .text ("Bearer " ++ token.display))]
  [("loadOptions", .object [("fetch", .object [("headers", headers)])])]

end MapLayers.Blending
