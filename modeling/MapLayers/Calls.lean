import MapLayers.Layer

/-!
# Calls of accessors

The renderer calls the accessors of a map in any order and as often as it likes. What an accessor keeps
from its calls belongs to its layer and its channel, so that props which share an accessor share it too.
-/

namespace MapLayers

/-- The accessor at the end of a path in the props of a layer. -/
def LayerDescriptor.accessorAt? (d : LayerDescriptor) (path : List String) : Option Accessor :=
  match (PropValue.ofProps d.props).at? path with
  | some (.accessor a) => some a
  | _ => none

/-- A call of the accessor at the end of a path in the props of a layer. -/
structure Call where
  layer : Nat
  path : List String
  args : List Json

def Call.accessor? (layers : List LayerDescriptor) (c : Call) : Option Accessor :=
  layers[c.layer]?.bind fun layer => layer.accessorAt? c.path

/-- What the accessors of all layers have kept so far, the latest first. -/
abbrev Memory := List ((Nat × Channel) × Kept)

namespace Memory

def keptFor (m : Memory) (layer : Nat) (channel : Channel) : Kept :=
  (m.lookup (layer, channel)).getD .nothing

def call (m : Memory) (layer : Nat) (a : Accessor) (args : List Json) : Result Json × Memory :=
  match a.channel? with
  | some channel =>
    let (value, kept) := a.call args (m.keptFor layer channel)
    (value, ((layer, channel), kept) :: m)
  | none => ((a.call args .nothing).1, m)

/-- The outcomes of calls one after the other; a call that reaches no accessor has none. -/
def outcomes (layers : List LayerDescriptor) (m : Memory) : List Call → List (Option (Result Json))
  | [] => []
  | c :: rest =>
    match c.accessor? layers with
    | some a =>
      let (value, m) := m.call c.layer a c.args
      some value :: outcomes layers m rest
    | none => none :: outcomes layers m rest

end Memory

end MapLayers
