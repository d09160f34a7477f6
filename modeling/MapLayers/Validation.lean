import MapLayers.LayerType
import MapLayers.MapDocument
import MapLayers.Report

/-!
# Validation

The structural checks of a map document before it is compiled. What would make a layer disappear is
an error; an unsupported layer type is a warning, because compilation skips such layers.
-/

namespace MapLayers.Validation

/-- The settings of a document of the supported version, or what is wrong with it. -/
def configOf (fields : Json.Fields) : Except String Json.Fields :=
  match Json.fieldOf fields "keplerMapConfig" with
  | .object mapConfig =>
    let version := Json.fieldOf mapConfig "version"
    if version.isTheText MapDocument.supportedVersion then
      match (Json.fieldOf mapConfig "config").orElse (.object []) with
      | .object config => .ok config
      | _ => .error "Expected mapping for 'keplerMapConfig.config'"
    else
      .error s!"Unsupported map config version {version.literal}, expected 'v1'"
  | _ => .error "Missing 'keplerMapConfig' mapping"

/-- The layer list of the settings, or what stands in its place. -/
def layersOf (config : Json.Fields) : Except String (List Json) :=
  let authored := Json.fieldOf config "visState"
  match if authored.isNull then .object config else authored with
  | .object visState =>
    match (Json.fieldOf visState "layers").orElse (.list []) with
    | .list layers => .ok layers
    | _ => .error "Expected list for 'layers'"
  | _ => .error "Expected mapping for 'visState'"

def labelOf (position : Nat) (entry : Json.Fields) : Json :=
  (Json.fieldOf entry "id").orElse (.text s!"layers[{position}]")

/-- A warning about a type that is not supported. A list or an object cannot be a type at all. -/
def typeWarnings (label type : Json) : Result (List String) :=
  match LayerType.ofJson type with
  | .ok _ => .ok []
  | .error (.unsupportedLayerType found) =>
    .ok [s!"Layer {label.display}: unsupported type {found.literal} will be skipped"]
  | .error fault => .error fault

/-- The errors in the configuration of a layer: it names a dataset that has data. -/
def configErrors (datasets : List Dataset) (label config : Json) : List String :=
  match config with
  | .object fields =>
    let dataId := Json.fieldOf fields "dataId"
    match Dataset.find? datasets dataId with
    | none => [s!"Layer {label.display}: no dataset matching dataId {dataId.literal}"]
    | some dataset =>
      if dataset.hasData then []
      else [s!"Layer {label.display}: no data loaded for dataset {dataId.literal}"]
  | _ => [s!"Layer {label.display}: missing 'config' mapping"]

def entryReport (datasets : List Dataset) (position : Nat) (entry : Json) : Result Report :=
  match entry with
  | .object fields => do
    let label := labelOf position fields
    let warnings ← typeWarnings label (Json.fieldOf fields "type")
    return ⟨configErrors datasets label (Json.fieldOf fields "config"), warnings, []⟩
  | _ => .ok ⟨[s!"layers[{position}] is not a mapping"], [], []⟩

def entryReports (datasets : List Dataset) (position : Nat) : List Json → Result Report
  | [] => .ok .empty
  | entry :: rest => do
    let report ← entryReport datasets position entry
    let others ← entryReports datasets (position + 1) rest
    return report ++ others

def layerReport (config : Json.Fields) (datasets : List Dataset) : Result Report :=
  match layersOf config with
  | .error finding => .ok (Report.empty.addError finding)
  | .ok layers => do
    let report ← entryReports datasets 0 layers
    return Report.empty.addInfo s!"Found {layers.length} layers" ++ report

def idCounts (datasets : List Dataset) : List (String × Nat) :=
  let ids := (datasets.map Dataset.id).mergeSort fun a b => decide (a ≤ b)
  let distinct := ids.eraseDups
  distinct.map fun id => (id, ids.count id)

def duplicateWarnings (datasets : List Dataset) : List String :=
  (idCounts datasets).filterMap fun (id, count) =>
    if 1 < count then
      some s!"Dataset id {Text.quoted id} appears {count} times; the first one wins"
    else none

/-- The datasets and the findings on them. All have to be well-formed, otherwise none counts. -/
def datasetReport (value : Json) : List Dataset × Report :=
  match Dataset.load value with
  | .error fault => ([], Report.empty.addError s!"Failed parsing datasets: {fault.text}")
  | .ok datasets =>
    (datasets,
      ⟨[], duplicateWarnings datasets, [s!"Found {datasets.length} datasets"]⟩)

def run (fields : Json.Fields) : Result Report :=
  match configOf fields with
  | .error finding => .ok (Report.empty.addError finding)
  | .ok config => do
    let (datasets, report) := datasetReport (Json.fieldOf fields "datasets")
    let layers ← layerReport config datasets
    return report ++ layers

def closing : String := "Validation completed with no errors."

end MapLayers.Validation
