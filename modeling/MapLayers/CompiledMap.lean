import MapLayers.LayerOutcome
import MapLayers.MapDocument
import MapLayers.Report

/-!
# Compiled maps

Compiling a map turns its layers into descriptors in drawing order, which is the reverse of the
authored one, and hands the settings of the view through. Only a document without the right outer
structure is refused; a layer that cannot be compiled is left out and reported.
-/

namespace MapLayers

structure CompiledMap where
  id : Json
  title : Json
  description : Json
  createdAt : Json
  updatedAt : Json
  initialViewState : Json
  mapStyle : Json
  popupSettings : Json
  legendSettings : Json
  token : Json
  layers : List LayerDescriptor

/-- How many layers there were, and what became of them. -/
structure LayerCount where
  layers : Nat
  compiled : Nat
  dropped : Nat
  deriving DecidableEq, Repr

/-- The messages of a compilation, with a count once it has come to an end. -/
structure CompileReport where
  messages : Report
  count? : Option LayerCount
  deriving DecidableEq, Repr

namespace CompileReport

def empty : CompileReport := ⟨.empty, none⟩

def ok (r : CompileReport) : Bool := r.messages.ok

def dropped (r : CompileReport) : Nat :=
  match r.count? with
  | some count => count.dropped
  | none => 0

def lines (r : CompileReport) : List String := r.messages.lines "Map compiled with no errors."

end CompileReport

/-- What the entries compiled so far have left. -/
structure Gathered where
  layers : List LayerDescriptor
  dropped : Nat
  messages : Report
  log : Log

namespace Gathered

def empty : Gathered := ⟨[], 0, .empty, []⟩

/-- Takes in the outcome of one more entry. An unsupported type is a warning, any other fault an
error; the entry counts as dropped either way. -/
def add (g : Gathered) (o : LayerOutcome) : Gathered :=
  let g := { g with log := g.log ++ o.log }
  match o.result with
  | .ok descriptor => { g with layers := g.layers ++ [descriptor] }
  | .error fault =>
    let g := { g with dropped := g.dropped + 1 }
    match fault with
    | .unsupportedLayerType _ =>
      { g with messages := g.messages.addWarning s!"Layer {o.id.display} skipped: {fault.text}" }
    | _ => { g with messages := g.messages.addError s!"Layer {o.id.display} dropped: {fault.text}" }

def run (surroundings : Surroundings) (datasets : List Dataset) (entries : List Json) : Gathered :=
  entries.foldl (fun g entry => g.add (LayerOutcome.ofEntry surroundings datasets entry)) empty

end Gathered

/-- A compiled map with everything that was reported on the way. -/
structure Compilation where
  map : CompiledMap
  report : CompileReport
  log : Log

namespace CompiledMap

def tokenFor (token : Json) (document : MapDocument) : Json :=
  if token.isNull then document.field "token" else token

def surroundings (token : Json) (document : MapDocument) : Surroundings :=
  ⟨Json.fieldOf document.visState "interactionConfig",
    Json.fieldOf document.visState "layerBlending",
    document.setting "filters",
    tokenFor token document⟩

/-- The settings of a document around compiled layers. -/
def around (token : Json) (document : MapDocument) (layers : List LayerDescriptor) :
    CompiledMap where
  id := document.field "id"
  title := document.field "title"
  description := document.field "description"
  createdAt := document.field "createdAt"
  updatedAt := document.field "updatedAt"
  initialViewState := document.setting "mapState"
  mapStyle := document.setting "mapStyle"
  popupSettings := document.setting "popupSettings"
  legendSettings := document.setting "legendSettings"
  token := tokenFor token document
  layers := layers

def reportOf (layerCount : Nat) (gathered : Gathered) : CompileReport :=
  let compiled := gathered.layers.length
  ⟨gathered.messages.addInfo s!"Compiled {compiled} of {layerCount} layers",
    some ⟨layerCount, compiled, gathered.dropped⟩⟩

/-- Compiles a document whose outer structure has been checked. -/
def compile (token : Json) (document : MapDocument) : Result Compilation := do
  let (datasets, log) ← Dataset.loadWellFormed (document.field "datasets")
  let gathered := Gathered.run (surroundings token document) datasets document.layers.reverse
  return ⟨around token document gathered.layers, reportOf document.layers.length gathered,
    log ++ gathered.log⟩

def ofFields (token : Json) (fields : Json.Fields) : Result Compilation :=
  match MapDocument.ofFields fields with
  | .ok document => compile token document
  | .error cause => .error (.document cause)

def withoutData (layer : LayerDescriptor) : LayerDescriptor :=
  { layer with props := layer.props.erase "data" }

/-- The map as a tree of data and accessors, with or without the data of its layers. -/
def toValue (includeData : Bool) (m : CompiledMap) : PropValue :=
  let layers := if includeData then m.layers else m.layers.map withoutData
  let settings : Json.Fields :=
    [("id", m.id), ("title", m.title), ("description", m.description),
      ("createdAt", m.createdAt), ("updatedAt", m.updatedAt),
      ("initialViewState", m.initialViewState), ("mapStyle", m.mapStyle),
      ("popupSettings", m.popupSettings), ("legendSettings", m.legendSettings),
      ("token", m.token)]
  .record (PropValue.ofFields settings
    ++ [(.field "layers", .list (layers.map LayerDescriptor.toValue))])

def toJson (placeholder : Json) (includeData : Bool) (m : CompiledMap) : Json :=
  (m.toValue includeData).toJson placeholder

end CompiledMap

end MapLayers
