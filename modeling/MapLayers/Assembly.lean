import MapLayers.Blending
import MapLayers.Channels.Resolve
import MapLayers.Style

/-!
# Assembly of props

The props of a layer come from several producers that are laid over each other in a fixed order: of
two producers that write the same prop, the later one wins. What the channels report is kept even if
a later producer fails.
-/

namespace MapLayers

/-- What all layers of a map share. -/
structure Surroundings where
  interaction : Json
  blending : Json
  filters : Json
  token : Json

/-- Everything that the producers of one layer read from. -/
structure Assembly where
  layer : Layer
  dataset : Dataset
  first : Props
  style : Json.Fields
  surroundings : Surroundings

namespace Assembly

/-- What one producer adds. -/
structure Part where
  props : Props
  log : Log

def plain (fields : Json.Fields) : Part :=
  ⟨fields.map fun entry => (entry.1, PropValue.ofJson entry.2), []⟩

def base (a : Assembly) : Result Part :=
  .ok (plain [("id", .text a.layer.id), ("data", a.dataset.data)])

def defaults (a : Assembly) : Result Part := .ok ⟨a.first, []⟩

def interaction (a : Assembly) : Result Part :=
  (Blending.interactionProps a.surroundings.interaction).map plain

def styled (a : Assembly) : Result Part := .ok (plain a.style)

def channels (a : Assembly) : Result Part := do
  let context : Channels.Context := ⟨a.layer, a.dataset, a.style⟩
  let props ← Channels.resolve context
  return ⟨props, [Channels.resolvedRecord context props]⟩

def parameters (a : Assembly) : Result Part :=
  (Blending.parametersProp a.surroundings.blending (Json.fieldOf a.style "parameters")).map plain

def loading (a : Assembly) : Result Part := .ok (plain (Blending.loadOptions a.surroundings.token))

def producers : List (Assembly → Result Part) :=
  [base, defaults, interaction, styled, channels, parameters, loading]

/-- What the producers run so far have left. -/
structure Progress where
  props : Result Props
  log : Log

/-- Runs one more producer, unless one before it has failed. -/
def Progress.next (p : Progress) (a : Assembly) (produce : Assembly → Result Part) : Progress :=
  match p.props with
  | .error _ => p
  | .ok props =>
    match produce a with
    | .ok part => ⟨.ok (Entries.overlay props part.props), p.log ++ part.log⟩
    | .error fault => ⟨.error fault, p.log⟩

def run (a : Assembly) : Progress :=
  producers.foldl (fun p produce => p.next a produce) ⟨.ok [], []⟩

end Assembly

end MapLayers
