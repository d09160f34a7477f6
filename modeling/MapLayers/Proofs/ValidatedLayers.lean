import MapLayers.Proofs.DatasetIsolation
import MapLayers.Proofs.FaultSources

/-!
# What the validator foresees

The validator and the compiler look at a layer each in its own order. Where all datasets are well-formed
they come to the same verdict: an entry with an error of the validator is dropped, and of the entries
that are layers those without data are the ones with an error and those of an unsupported type the ones
with a warning.
-/

namespace MapLayers

open MapDocument (layerList outline)

theorem LayerType.ofJson_cases {value : Json} (h : value.hashable = true) :
    (∃ type, ofJson value = .ok type) ∨
      ofJson value = .error (.unsupportedLayerType value) := by
  unfold ofJson
  rw [if_neg (by simp [h])]
  split
  · next type _ => exact .inl ⟨type, rfl⟩
  · exact .inr rfl

namespace LayerOutcome

variable {surroundings : Surroundings} {datasets : List Dataset} {entry : Json} {layer : Layer}
  {dataset : Dataset} {fault : Fault}

/-- The dataset of a layer is there with its data, or one of two faults says which is missing. -/
theorem datasetOf_cases (datasets : List Dataset) (layer : Layer) :
    (∃ dataset, datasetOf datasets layer = .ok dataset) ∨
      datasetOf datasets layer = .error (.layer (.noDataset layer.dataId)) ∨
      datasetOf datasets layer = .error (.layer (.noData layer.dataId)) := by
  unfold datasetOf
  split
  · exact .inr (.inl rfl)
  · next dataset _ =>
    split
    · exact .inl ⟨dataset, rfl⟩
    · exact .inr (.inr rfl)

theorem datasetOf_isOk_iff : (∃ dataset, datasetOf datasets layer = .ok dataset) ↔
    ∃ dataset, Dataset.find? datasets layer.dataId = some dataset ∧ dataset.hasData = true := by
  constructor
  · rintro ⟨dataset, hdataset⟩
    exact ⟨dataset, datasetOf_inv hdataset⟩
  · rintro ⟨dataset, hfound, hdata⟩
    exact ⟨dataset, by simp [datasetOf, hfound, hdata]⟩

/-- The id of the dataset that an entry asks for, null if it asks for none. -/
def dataIdOf (entry : Json) : Json :=
  Json.fieldOf (Json.fieldOf entry.fieldsOrNone "config").fieldsOrNone "dataId"

theorem dataIdOf_eq (h : layerOf entry = .ok layer) : dataIdOf entry = layer.dataId := by
  obtain ⟨fields, rfl, hfields⟩ := layerOf_inv h
  rw [dataIdOf, Json.fieldsOrNone_object, ← (Layer.ofFields_inv hfields).2.2]
  rfl

theorem layerOf_fault (h : layerOf entry = .error fault) : ∃ cause, fault = .layer cause := by
  unfold layerOf at h
  split at h
  · split at h
    · simp at h
    · exact ⟨_, (Except.error.inj h).symm⟩
  · exact ⟨_, (Except.error.inj h).symm⟩

theorem result_of_layer (hlayer : layerOf entry = .error fault) :
    (ofEntry surroundings datasets entry).result = .error fault := by
  simp only [ofEntry, prepare, hlayer]
  rfl

theorem result_of_dataset (hlayer : layerOf entry = .ok layer)
    (hdataset : datasetOf datasets layer = .error fault) :
    (ofEntry surroundings datasets entry).result = .error fault := by
  simp only [ofEntry, prepare, hlayer, Result.ok_bind, hdataset]
  rfl

theorem result_of_type (hlayer : layerOf entry = .ok layer)
    (hdataset : datasetOf datasets layer = .ok dataset)
    (htype : LayerType.ofJson (.text layer.type) = .error fault) :
    (ofEntry surroundings datasets entry).result = .error fault := by
  simp only [ofEntry, prepare, hlayer, Result.ok_bind, hdataset, LayerType.propsFor, htype]
  rfl

/-- A layer with data and a supported type fails without a verdict, if at all. -/
theorem result_noVerdict {type : LayerType} (hlayer : layerOf entry = .ok layer)
    (hdataset : datasetOf datasets layer = .ok dataset)
    (htype : LayerType.ofJson (.text layer.type) = .ok type) :
    Result.NoVerdict (ofEntry surroundings datasets entry).result := by
  have hprepare : Result.NoVerdict (prepare surroundings datasets entry) := by
    simp [prepare, hlayer, hdataset, LayerType.propsFor, htype, Style.props_noVerdict]
  unfold ofEntry
  cases hprepared : prepare surroundings datasets entry with
  | error fault =>
    rw [hprepared] at hprepare
    simpa using hprepare
  | ok a =>
    exact Result.noVerdict_bind.mpr ⟨a.run_noVerdict, fun props _ => describe_noVerdict a props⟩

/-- The messages that the outcome of an entry adds to the report. -/
def messages (o : LayerOutcome) : Report := (Gathered.empty.add o).messages

theorem messages_of_layer_fault {o : LayerOutcome} {cause : LayerFault}
    (h : o.result = .error (.layer cause)) :
    o.messages = ⟨[s!"Layer {o.id.display} dropped: {(Fault.layer cause).text}"], [], []⟩ := by
  simp [messages, Gathered.add, h, Gathered.empty, Report.empty, Report.addError]

theorem messages_warnings_iff {o : LayerOutcome} :
    o.messages.warnings ≠ [] ↔ ∃ found, o.result = .error (.unsupportedLayerType found) := by
  unfold messages Gathered.add
  cases o.result with
  | ok descriptor => simp [Gathered.empty, Report.empty]
  | error fault =>
    cases fault <;> simp [Gathered.empty, Report.empty, Report.addError, Report.addWarning]

end LayerOutcome

namespace Validation

open LayerOutcome (dataIdOf layerOf)

variable {datasets : List Dataset} {position : Nat} {entry : Json} {finding : Report}

theorem find?_null (datasets : List Dataset) : Dataset.find? datasets .null = none :=
  List.find?_eq_none.mpr fun _ _ => by simp [Json.isTheText]

theorem configErrors_eq_nil_iff {label config : Json} :
    configErrors datasets label config = [] ↔
      ∃ dataset, Dataset.find? datasets (Json.fieldOf config.fieldsOrNone "dataId") = some dataset ∧
        dataset.hasData = true := by
  cases config with
  | object fields =>
    rw [Json.fieldsOrNone_object]
    cases hfound : Dataset.find? datasets (Json.fieldOf fields "dataId") with
    | none => simp [configErrors, hfound]
    | some dataset => cases hdata : dataset.hasData <;> simp [configErrors, hfound, hdata]
  | _ => simp [configErrors, Json.fieldsOrNone, find?_null]

theorem typeWarnings_total (label : Json) {type : Json} (h : type.hashable = true) :
    ∃ warnings, typeWarnings label type = .ok warnings := by
  unfold typeWarnings
  rcases LayerType.ofJson_cases h with ⟨supported, hsupported⟩ | hunsupported
  · exact ⟨_, by rw [hsupported]⟩
  · exact ⟨_, by rw [hunsupported]⟩

theorem entryReport_total (datasets : List Dataset) (position : Nat)
    (h : (Json.fieldOf entry.fieldsOrNone "type").hashable = true) :
    ∃ finding, entryReport datasets position entry = .ok finding := by
  cases entry with
  | object fields =>
    rw [Json.fieldsOrNone_object] at h
    obtain ⟨warnings, hwarnings⟩ := typeWarnings_total (labelOf position fields) h
    exact ⟨_, by simp only [entryReport, hwarnings]; rfl⟩
  | _ => exact ⟨_, rfl⟩

theorem errors_eq_nil_iff (h : entryReport datasets position entry = .ok finding) :
    finding.errors = [] ↔ ∃ dataset, Dataset.find? datasets (dataIdOf entry) = some dataset ∧
      dataset.hasData = true := by
  cases entry with
  | object fields =>
    simp only [entryReport, Result.bind_eq_ok_iff, Result.pure_eq_ok_iff] at h
    obtain ⟨warnings, -, rfl⟩ := h
    exact configErrors_eq_nil_iff
  | _ =>
    rw [← Except.ok.inj h]
    simp [dataIdOf, Json.fieldsOrNone, find?_null]

theorem warnings_ne_nil_iff {layer : Layer}
    (h : entryReport datasets position entry = .ok finding) (hlayer : layerOf entry = .ok layer) :
    finding.warnings ≠ [] ↔
      LayerType.ofJson (.text layer.type) = .error (.unsupportedLayerType (.text layer.type)) := by
  obtain ⟨fields, rfl, hfields⟩ := LayerOutcome.layerOf_inv hlayer
  simp only [entryReport, Result.bind_eq_ok_iff, Result.pure_eq_ok_iff] at h
  obtain ⟨warnings, hwarnings, rfl⟩ := h
  rw [(Layer.ofFields_inv hfields).2.1] at hwarnings
  have hhashable : (Json.text layer.type).hashable = true := rfl
  rcases LayerType.ofJson_cases hhashable with ⟨type, htype⟩ | htype
  · rw [typeWarnings, htype, Except.ok.injEq] at hwarnings
    simp [← hwarnings, htype]
  · rw [typeWarnings, htype, Except.ok.injEq] at hwarnings
    simp [← hwarnings, htype]

/-- The findings on a list of entries are those on its entries. -/
theorem entryReports_eq (datasets : List Dataset) (entries : List Json) (position : Nat)
    (h : ∀ entry ∈ entries, (Json.fieldOf entry.fieldsOrNone "type").hashable = true) :
    ∃ findings : List Report, findings.length = entries.length ∧
      (∀ i entry finding, entries[i]? = some entry → findings[i]? = some finding →
        entryReport datasets (position + i) entry = .ok finding) ∧
      ∃ report, entryReports datasets position entries = .ok report ∧
        report.errors = findings.flatMap Report.errors ∧
        report.warnings = findings.flatMap Report.warnings := by
  induction entries generalizing position with
  | nil => exact ⟨[], rfl, by simp, .empty, rfl, rfl, rfl⟩
  | cons entry rest ih =>
    obtain ⟨hentry, hrest⟩ := List.forall_mem_cons.mp h
    obtain ⟨finding, hfinding⟩ := entryReport_total datasets position hentry
    obtain ⟨findings, hlength, hfindings, report, hreport, herrors, hwarnings⟩ :=
      ih (position + 1) hrest
    refine ⟨finding :: findings, by simp [hlength], ?_, finding ++ report, ?_, ?_, ?_⟩
    · intro i other found hother hfound
      cases i with
      | zero =>
        cases hother
        cases hfound
        exact hfinding
      | succ i =>
        have hlater := hfindings i other found hother hfound
        rwa [Nat.add_right_comm, Nat.add_assoc] at hlater
    · simp only [entryReports, hfinding, hreport]
      rfl
    · rw [List.flatMap_cons, ← herrors]
      rfl
    · rw [List.flatMap_cons, ← hwarnings]
      rfl

end Validation

/-- What the validator finds in an entry, and what becomes of the entry. -/
structure Foreseen (entry : Json) (finding : Report) (outcome : LayerOutcome) : Prop where
  dropped : finding.errors ≠ [] → ∃ cause, outcome.result = .error (.layer cause) ∧
    outcome.messages = ⟨[s!"Layer {outcome.id.display} dropped: {(Fault.layer cause).text}"], [], []⟩
  withoutData : ∀ layer, LayerOutcome.layerOf entry = .ok layer → (finding.errors ≠ [] ↔
    outcome.result = .error (.layer (.noDataset layer.dataId)) ∨
      outcome.result = .error (.layer (.noData layer.dataId)))
  skipped : ∀ layer, LayerOutcome.layerOf entry = .ok layer → finding.errors = [] →
    (finding.warnings ≠ [] ↔ outcome.messages.warnings ≠ [])

namespace Validation

open LayerOutcome (dataIdOf datasetOf layerOf)

variable {surroundings : Surroundings} {datasets : List Dataset} {position : Nat} {entry : Json}
  {finding : Report} {layer : Layer}

theorem errors_eq_nil_iff_datasetOf (h : entryReport datasets position entry = .ok finding)
    (hlayer : layerOf entry = .ok layer) :
    finding.errors = [] ↔ ∃ dataset, datasetOf datasets layer = .ok dataset := by
  rw [errors_eq_nil_iff h, LayerOutcome.dataIdOf_eq hlayer, LayerOutcome.datasetOf_isOk_iff]

theorem result_of_errors (surroundings : Surroundings)
    (h : entryReport datasets position entry = .ok finding) (herrors : finding.errors ≠ []) :
    ∃ cause, (LayerOutcome.ofEntry surroundings datasets entry).result = .error (.layer cause) := by
  cases hlayer : layerOf entry with
  | error fault =>
    obtain ⟨cause, rfl⟩ := LayerOutcome.layerOf_fault hlayer
    exact ⟨cause, LayerOutcome.result_of_layer hlayer⟩
  | ok layer =>
    rcases LayerOutcome.datasetOf_cases datasets layer with hdataset | hdataset | hdataset
    · exact absurd ((errors_eq_nil_iff_datasetOf h hlayer).mpr hdataset) herrors
    · exact ⟨_, LayerOutcome.result_of_dataset hlayer hdataset⟩
    · exact ⟨_, LayerOutcome.result_of_dataset hlayer hdataset⟩

theorem result_of_no_errors (surroundings : Surroundings)
    (h : entryReport datasets position entry = .ok finding) (hlayer : layerOf entry = .ok layer)
    (herrors : finding.errors = []) :
    let result := (LayerOutcome.ofEntry surroundings datasets entry).result
    (finding.warnings ≠ [] ∧ result = .error (.unsupportedLayerType (.text layer.type))) ∨
      (finding.warnings = [] ∧ result.NoVerdict) := by
  intro result
  obtain ⟨dataset, hdataset⟩ := (errors_eq_nil_iff_datasetOf h hlayer).mp herrors
  have hwarnings := warnings_ne_nil_iff h hlayer
  have hhashable : (Json.text layer.type).hashable = true := rfl
  rcases LayerType.ofJson_cases hhashable with ⟨type, htype⟩ | htype
  · rw [htype] at hwarnings
    exact .inr ⟨by simpa using hwarnings, LayerOutcome.result_noVerdict hlayer hdataset htype⟩
  · exact .inl ⟨hwarnings.mpr htype, LayerOutcome.result_of_type hlayer hdataset htype⟩

/-- The validator foresees what becomes of an entry. -/
theorem foreseen (h : entryReport datasets position entry = .ok finding) :
    Foreseen entry finding (LayerOutcome.ofEntry surroundings datasets entry) := by
  constructor
  case dropped =>
    intro herrors
    obtain ⟨cause, hcause⟩ := result_of_errors surroundings h herrors
    exact ⟨cause, hcause, LayerOutcome.messages_of_layer_fault hcause⟩
  case withoutData =>
    intro layer hlayer
    constructor
    · intro herrors
      rcases LayerOutcome.datasetOf_cases datasets layer with hdataset | hdataset | hdataset
      · exact absurd ((errors_eq_nil_iff_datasetOf h hlayer).mpr hdataset) herrors
      · exact .inl (LayerOutcome.result_of_dataset hlayer hdataset)
      · exact .inr (LayerOutcome.result_of_dataset hlayer hdataset)
    · intro hresult herrors
      obtain ⟨cause, hcause⟩ : ∃ cause,
          (LayerOutcome.ofEntry surroundings datasets entry).result = .error (.layer cause) := by
        rcases hresult with hresult | hresult
        · exact ⟨_, hresult⟩
        · exact ⟨_, hresult⟩
      rcases result_of_no_errors surroundings h hlayer herrors with ⟨-, htype⟩ | ⟨-, hinner⟩
      · simp [hcause] at htype
      · simpa [Fault.isVerdict] using hinner _ hcause
  case skipped =>
    intro layer hlayer herrors
    rw [LayerOutcome.messages_warnings_iff]
    rcases result_of_no_errors surroundings h hlayer herrors with ⟨hwarned, htype⟩ | ⟨hnone, hinner⟩
    · exact ⟨fun _ => ⟨_, htype⟩, fun _ => hwarned⟩
    · refine ⟨fun hwarned => absurd hnone hwarned, ?_⟩
      rintro ⟨found, hfound⟩
      simpa [Fault.isVerdict] using hinner _ hfound

end Validation

/-- The findings on a document beside the outcomes of its layers, entry by entry. -/
structure ForeseenThroughout (fields : Json.Fields) (datasets : List Dataset) (report : Report)
    (findings : List Report) (outcomes : List LayerOutcome) (whole : Compilation) : Prop where
  validated : Validation.run fields = .ok report
  errors : report.errors = findings.flatMap Report.errors
  warnings : report.warnings =
    Validation.duplicateWarnings datasets ++ findings.flatMap Report.warnings
  compileErrors : whole.report.messages.errors =
    outcomes.reverse.flatMap fun o => o.messages.errors
  compileWarnings : whole.report.messages.warnings =
    outcomes.reverse.flatMap fun o => o.messages.warnings
  layers : whole.map.layers = outcomes.reverse.flatMap fun o => o.result.toOption.toList
  found : findings.length = (layerList fields).length
  compiled : outcomes.length = (layerList fields).length
  foreseen : ∀ i entry finding outcome, (layerList fields)[i]? = some entry →
    findings[i]? = some finding → outcomes[i]? = some outcome →
    Validation.entryReport datasets i entry = .ok finding ∧ Foreseen entry finding outcome

namespace Gathered

variable (surroundings : Surroundings) (datasets : List Dataset)

theorem messages_errors_eq (entries : List Json) :
    (run surroundings datasets entries.reverse).messages.errors =
      (entries.map (LayerOutcome.ofEntry surroundings datasets)).reverse.flatMap
        fun o => o.messages.errors := by
  rw [run_flatMap surroundings datasets (fun g => g.messages.errors) rfl (fun _ _ => rfl),
    ← List.map_reverse, List.flatMap_map]
  rfl

theorem messages_warnings_eq (entries : List Json) :
    (run surroundings datasets entries.reverse).messages.warnings =
      (entries.map (LayerOutcome.ofEntry surroundings datasets)).reverse.flatMap
        fun o => o.messages.warnings := by
  rw [run_flatMap surroundings datasets (fun g => g.messages.warnings) rfl (fun _ _ => rfl),
    ← List.map_reverse, List.flatMap_map]
  rfl

theorem layers_eq (entries : List Json) :
    (run surroundings datasets entries.reverse).layers =
      (entries.map (LayerOutcome.ofEntry surroundings datasets)).reverse.flatMap
        fun o => o.result.toOption.toList := by
  have hone : ∀ entry, (run surroundings datasets [entry]).layers =
      (LayerOutcome.ofEntry surroundings datasets entry).result.toOption.toList := by
    intro entry
    show (empty.add (LayerOutcome.ofEntry surroundings datasets entry)).layers = _
    unfold add
    cases (LayerOutcome.ofEntry surroundings datasets entry).result with
    | ok descriptor => rfl
    | error fault => cases fault <;> rfl
  rw [run_flatMap surroundings datasets layers rfl (fun _ _ => rfl), ← List.map_reverse,
    List.flatMap_map]
  simp only [hone]

end Gathered

/-- Of a document without structural faults the validator reports on the datasets, then on the layers. -/
theorem Validation.run_of_not_malformed {fields : Json.Fields}
    (h : ¬MapDocument.Malformed fields) :
    let (datasets, datasetFindings) := datasetReport (Json.fieldOf fields "datasets")
    run fields = (entryReports datasets 0 (layerList fields)).map fun report =>
      datasetFindings ++ (Report.empty.addInfo s!"Found {(layerList fields).length} layers" ++
        report) := by
  obtain ⟨hmap, hversion, hsettings, hvis, hlayers⟩ := MapDocument.not_malformed_iff.mp h
  have hconfig := configOf_eq_ok_iff.mpr (MapDocument.configOf_ok hmap hversion hsettings)
  have hlist := layersOf_eq_ok_iff.mpr
    ⟨_, MapDocument.visStateOf_ok hvis, MapDocument.layersOf_ok hlayers⟩
  unfold run layerReport
  rw [hconfig]
  simp only [hlist, layerList]
  cases entryReports (datasetReport (Json.fieldOf fields "datasets")).1 0
    (MapDocument.layersValue fields).itemsOrNone <;> rfl

namespace CompiledMap

/-- Where all datasets are well-formed and every type can be looked up, the validator foresees what
becomes of every layer. -/
theorem validator_foresees {token : Json} {fields : Json.Fields} {whole : Compilation}
    (h : ofFields token fields = .ok whole) {datasets : List Dataset}
    (hload : Dataset.load (Json.fieldOf fields "datasets") = .ok datasets)
    (htypes : ∀ entry ∈ layerList fields,
      (Json.fieldOf entry.fieldsOrNone "type").hashable = true) :
    ∃ report findings, ForeseenThroughout fields datasets report findings
      ((layerList fields).map
        (LayerOutcome.ofEntry (surroundings token (outline fields)) datasets)) whole := by
  obtain ⟨hread, loaded, hloaded, rfl⟩ := ofFields_inv h
  rw [Dataset.load_wellFormed hload, Except.ok.injEq] at hloaded
  subst hloaded
  obtain ⟨hwell, -⟩ := MapDocument.ofFields_eq_ok_iff.mp hread
  obtain ⟨findings, hlength, hfindings, layers, hlayers, herrors, hwarnings⟩ :=
    Validation.entryReports_eq datasets (layerList fields) 0 htypes
  obtain ⟨report, hrun, hreport⟩ : ∃ report, Validation.run fields = .ok report ∧
      report.errors = layers.errors ∧
      report.warnings = Validation.duplicateWarnings datasets ++ layers.warnings := by
    have hrun := Validation.run_of_not_malformed hwell
    simp only [Validation.datasetReport, hload, hlayers, Except.map] at hrun
    exact ⟨_, hrun, rfl, rfl⟩
  refine ⟨report, findings, ?_⟩
  exact {
    validated := hrun
    errors := hreport.1.trans herrors
    warnings := by rw [hreport.2, hwarnings]
    compileErrors := Gathered.messages_errors_eq _ _ _
    compileWarnings := Gathered.messages_warnings_eq _ _ _
    layers := Gathered.layers_eq _ _ _
    found := hlength
    compiled := List.length_map _
    foreseen := by
      intro i entry finding outcome hentry hfinding houtcome
      have hentryReport := hfindings i entry finding hentry hfinding
      rw [Nat.zero_add] at hentryReport
      rw [List.getElem?_map, hentry, Option.map_some, Option.some.injEq] at houtcome
      exact ⟨hentryReport, houtcome ▸ Validation.foreseen hentryReport⟩ }

/-- A document with a layer of an unsupported type, layers without a dataset, without data and without a
configuration, and an entry that is no layer. -/
def troubledDocument : Json.Fields :=
  [("datasets", .list [.object [("id", .text "cities"), ("data", .list [])],
      .object [("id", .text "pending")]]),
    ("keplerMapConfig", .object [("version", .text "v1"), ("config", .object [("visState", .object
      [("layers", .list
        [.object [("id", .text "a"), ("type", .text "mvt"),
            ("config", .object [("dataId", .text "cities")])],
          .object [("id", .text "b"), ("type", .text "arc"),
            ("config", .object [("dataId", .text "cities")])],
          .object [("id", .text "c"), ("type", .text "mvt"),
            ("config", .object [("dataId", .text "nowhere")])],
          .object [("id", .text "d"), ("type", .text "arc"),
            ("config", .object [("dataId", .text "pending")])],
          .object [("id", .text "e"), ("type", .text "point")],
          .text "junk"])])])])]

theorem validator_foresees_troubled : ∃ whole datasets report findings,
    ofFields .null troubledDocument = .ok whole ∧ whole.report.count? = some ⟨6, 1, 5⟩ ∧
    Dataset.load (Json.fieldOf troubledDocument "datasets") = .ok datasets ∧
    (∀ entry ∈ layerList troubledDocument,
      (Json.fieldOf entry.fieldsOrNone "type").hashable = true) ∧
    ForeseenThroughout troubledDocument datasets report findings
      ((layerList troubledDocument).map
        (LayerOutcome.ofEntry (surroundings .null (outline troubledDocument)) datasets)) whole := by
  obtain ⟨whole, hwhole, hcount⟩ : ∃ whole, ofFields .null troubledDocument = .ok whole ∧
      whole.report.count? = some ⟨6, 1, 5⟩ := ⟨_, rfl, rfl⟩
  obtain ⟨datasets, hload⟩ : ∃ datasets,
      Dataset.load (Json.fieldOf troubledDocument "datasets") = .ok datasets := ⟨_, rfl⟩
  have htypes : ∀ entry ∈ layerList troubledDocument,
      (Json.fieldOf entry.fieldsOrNone "type").hashable = true := by decide
  obtain ⟨report, findings, hforeseen⟩ := validator_foresees hwhole hload htypes
  exact ⟨whole, datasets, report, findings, hwhole, hcount, hload, htypes, hforeseen⟩

end CompiledMap

end MapLayers
