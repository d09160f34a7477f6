import MapLayers.Assembly

/-!
# Outcomes of layers

Every entry of the layer list is compiled by itself: it becomes a descriptor, or is skipped because its
type is not supported, or is dropped for any other fault. What happens to one entry depends on no
other.
-/

namespace MapLayers

/-- What became of one entry of the layer list, with everything reported on the way. -/
structure LayerOutcome where
  id : Json
  result : Result LayerDescriptor
  log : Log

namespace LayerOutcome

def idOf : Json → Json
  | .object fields => Json.fieldOf fields "id"
  | _ => .null

/-- The authored layer; whatever is wrong with it makes it malformed. -/
def layerOf : Json → Result Layer
  | .object fields =>
    match Layer.ofFields fields with
    | .ok layer => .ok layer
    | .error fault => .error (.layer (.malformed fault.text))
  | _ => .error (.layer .notMapping)

def datasetOf (datasets : List Dataset) (layer : Layer) : Result Dataset :=
  match Dataset.find? datasets layer.dataId with
  | none => .error (.layer (.noDataset layer.dataId))
  | some dataset =>
    if dataset.hasData then .ok dataset else .error (.layer (.noData layer.dataId))

/-- Everything that is needed to assemble the props of an entry. -/
def prepare (surroundings : Surroundings) (datasets : List Dataset) (entry : Json) :
    Result Assembly := do
  let layer ← layerOf entry
  let dataset ← datasetOf datasets layer
  let (table, first) ← LayerType.propsFor (.text layer.type) layer.config dataset
  let style ← Style.props layer.config table
  return ⟨layer, dataset, first, style, surroundings⟩

/-- The filters that the renderer applies itself, if the data service does not. -/
def filtersFor (filters : Json) (dataset : Dataset) : Result Json :=
  if !filters.truthy then .ok .null
  else do
    if ← dataset.isFilteredRemotely then return .null
    match filters with
    | .object fields => return Json.fieldOf fields dataset.id
    | _ => return .null

def describe (a : Assembly) (props : Props) : Result LayerDescriptor := do
  let filters ← filtersFor a.surroundings.filters a.dataset
  return ⟨a.layer.type, props, filters⟩

def source : LogSource := .compiler

def closingRecord (id : Json) : Result LayerDescriptor → LogRecord
  | .ok descriptor => ⟨.debug, source, s!"Compiled layer {id.display} ({descriptor.type})"⟩
  | .error fault =>
    match fault with
    | .unsupportedLayerType _ =>
      ⟨.warning, source, s!"Skipping layer {id.display}: {fault.text}"⟩
    | _ => ⟨.error, source, s!"Failed compiling layer {id.display}: {fault.text}"⟩

def ofEntry (surroundings : Surroundings) (datasets : List Dataset) (entry : Json) :
    LayerOutcome :=
  let id := idOf entry
  let (result, log) : Result LayerDescriptor × Log :=
    match prepare surroundings datasets entry with
    | .error fault => (.error fault, [])
    | .ok assembly =>
      let progress := assembly.run
      (progress.props.bind (describe assembly), progress.log)
  ⟨id, result, log ++ [closingRecord id result]⟩

end LayerOutcome

end MapLayers
