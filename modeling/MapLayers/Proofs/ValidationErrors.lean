import MapLayers.Proofs.ValidatedLayers

/-!
# Errors without consequence

What the validator reports as an error should cost the map a layer, or the map as a whole. The validator
loads the datasets strictly, the compiler leaves malformed ones out, so a malformed dataset that no layer
needs is an error without consequence. It is the only one.
-/

namespace MapLayers

open MapDocument (Malformed layerList outline)

namespace Dataset

theorem load_fault {value : Json} (h : MalformedList value) :
    ∃ fault, load value = .error fault := by
  cases hload : load value with
  | error fault => exact ⟨fault, rfl⟩
  | ok datasets => exact absurd h (load_isOk_iff.mp ⟨datasets, hload⟩)

end Dataset

namespace Validation

variable {fields : Json.Fields} {datasets : List Dataset} {report : Report}

theorem exists_entry_of_errors {entries : List Json} {position : Nat}
    (h : entryReports datasets position entries = .ok report) (herrors : report.errors ≠ []) :
    ∃ entry ∈ entries, ∃ i finding, entryReport datasets i entry = .ok finding ∧
      finding.errors ≠ [] := by
  induction entries generalizing position report with
  | nil =>
    rw [← Except.ok.inj h] at herrors
    exact absurd rfl herrors
  | cons entry rest ih =>
    simp only [entryReports, Result.bind_eq_ok_iff, Result.pure_eq_ok_iff] at h
    obtain ⟨finding, hfinding, others, hothers, rfl⟩ := h
    by_cases hfirst : finding.errors = []
    · have hrest : others.errors ≠ [] := by
        intro hnone
        refine herrors ?_
        show finding.errors ++ others.errors = []
        rw [hfirst, hnone]
        rfl
      obtain ⟨other, hother, found⟩ := ih hothers hrest
      exact ⟨other, List.mem_cons_of_mem _ hother, found⟩
    · exact ⟨entry, by simp, position, finding, hfinding, hfirst⟩

theorem errors_of_malformedList (hwell : ¬Malformed fields) (h : run fields = .ok report)
    (hdatasets : Dataset.MalformedList (Json.fieldOf fields "datasets")) : report.errors ≠ [] := by
  obtain ⟨fault, hfault⟩ := Dataset.load_fault hdatasets
  have hrun := run_of_not_malformed hwell
  simp only [datasetReport, hfault] at hrun
  rw [hrun, Result.map_eq_ok_iff] at h
  obtain ⟨layers, -, rfl⟩ := h
  show [_] ++ _ ≠ []
  simp

theorem exists_entry_of_loaded (hwell : ¬Malformed fields) (h : run fields = .ok report)
    (hload : Dataset.load (Json.fieldOf fields "datasets") = .ok datasets)
    (herrors : report.errors ≠ []) :
    ∃ entry ∈ layerList fields, ∃ i finding, entryReport datasets i entry = .ok finding ∧
      finding.errors ≠ [] := by
  have hrun := run_of_not_malformed hwell
  simp only [datasetReport, hload] at hrun
  rw [hrun, Result.map_eq_ok_iff] at h
  obtain ⟨layers, hlayers, rfl⟩ := h
  exact exists_entry_of_errors hlayers herrors

end Validation

namespace CompiledMap

variable {token : Json} {fields : Json.Fields} {report : Report}

def Refused (token : Json) (fields : Json.Fields) : Prop :=
  ∃ fault, ofFields token fields = .error fault ∧ fault.kind = .document

/-- The document is compiled without one of its layers at least. -/
def Drops (token : Json) (fields : Json.Fields) : Prop :=
  ∃ whole, ofFields token fields = .ok whole ∧ 0 < whole.report.dropped

theorem refused_of_malformed (h : Malformed fields) : Refused token fields := by
  obtain ⟨cause, hread⟩ := MapDocument.refused_of_malformed h
  unfold Refused ofFields
  rw [hread]
  exact ⟨_, rfl, rfl⟩

theorem drops_of_errors {whole : Compilation} (h : ofFields token fields = .ok whole)
    (herrors : whole.report.messages.errors ≠ []) : Drops token fields := by
  obtain ⟨-, loaded, -, rfl⟩ := ofFields_inv h
  have hcounted := (Gathered.run_counted (surroundings token (outline fields)) loaded.1
    (layerList fields).reverse).reported
  have hpositive := List.length_pos_iff.mpr herrors
  refine ⟨_, h, ?_⟩
  show 0 < (Gathered.run (surroundings token (outline fields)) loaded.1
    (layerList fields).reverse).dropped
  rw [hcounted]
  exact Nat.add_pos_left hpositive _

theorem drops_of_loaded {datasets : List Dataset} (hwell : ¬Malformed fields)
    (h : Validation.run fields = .ok report)
    (hload : Dataset.load (Json.fieldOf fields "datasets") = .ok datasets)
    (herrors : report.errors ≠ []) : Drops token fields := by
  obtain ⟨entry, hentry, i, finding, hfinding, hfaulty⟩ :=
    Validation.exists_entry_of_loaded hwell h hload herrors
  obtain ⟨whole, hcompiled⟩ := compiles_of_not_malformed token hwell
  obtain ⟨-, loaded, hloaded, rfl⟩ := ofFields_inv hcompiled
  rw [Dataset.load_wellFormed hload, Except.ok.injEq] at hloaded
  subst hloaded
  refine drops_of_errors hcompiled ?_
  show (Gathered.run (surroundings token (outline fields)) datasets
    (layerList fields).reverse).messages.errors ≠ []
  rw [Gathered.messages_errors_eq]
  intro hnone
  obtain ⟨cause, hcause⟩ :=
    Validation.result_of_errors (surroundings token (outline fields)) hfinding hfaulty
  have hmessages := List.flatMap_eq_nil_iff.mp hnone
    (LayerOutcome.ofEntry (surroundings token (outline fields)) datasets entry)
    (by simpa using ⟨entry, hentry, rfl⟩)
  rw [LayerOutcome.messages_of_layer_fault hcause] at hmessages
  simp at hmessages

/-- The validator finds an error, but the map loses nothing. -/
def Spurious (token : Json) (fields : Json.Fields) (report : Report) : Prop :=
  report.errors ≠ [] ∧ ¬Refused token fields ∧ ¬Drops token fields

/-- Errors are without consequence exactly where a malformed dataset costs no layer. -/
theorem spurious_iff {token : Json} {fields : Json.Fields} {report : Report}
    (h : Validation.run fields = .ok report) :
    Spurious token fields report ↔
      Dataset.MalformedList (Json.fieldOf fields "datasets") ∧
        ¬Refused token fields ∧ ¬Drops token fields := by
  constructor
  · rintro ⟨herrors, hrefused, hdrops⟩
    refine ⟨?_, hrefused, hdrops⟩
    by_cases hdatasets : Dataset.MalformedList (Json.fieldOf fields "datasets")
    · exact hdatasets
    · obtain ⟨datasets, hload⟩ := Dataset.load_isOk_iff.mpr hdatasets
      have hwell : ¬Malformed fields := fun hbad => hrefused (refused_of_malformed hbad)
      exact absurd (drops_of_loaded hwell h hload herrors) hdrops
  · rintro ⟨hdatasets, hrefused, hdrops⟩
    have hwell : ¬Malformed fields := fun hbad => hrefused (refused_of_malformed hbad)
    exact ⟨Validation.errors_of_malformedList hwell h hdatasets, hrefused, hdrops⟩

/-- A document with a layer and its dataset, and with a stray entry beside the dataset. -/
def strayDocument : Json.Fields :=
  [("datasets", .list [.object [("id", .text "d"), ("data", .list [])], .text "junk"]),
    ("keplerMapConfig", .object [("version", .text "v1"), ("config", .object [("visState", .object
      [("layers", .list [.object [("id", .text "a"), ("type", .text "mvt"),
        ("config", .object [("dataId", .text "d")])]])])])])]

theorem spurious_iff_stray : ∃ report, Validation.run strayDocument = .ok report ∧
    (Spurious .null strayDocument report ↔
      Dataset.MalformedList (Json.fieldOf strayDocument "datasets") ∧
        ¬Refused .null strayDocument ∧ ¬Drops .null strayDocument) := by
  obtain ⟨report, hreport⟩ : ∃ report, Validation.run strayDocument = .ok report := ⟨_, rfl⟩
  exact ⟨report, hreport, spurious_iff hreport⟩

/-- The stray entry is an error, and so is every layer, while all layers are compiled. -/
theorem stray_entry_spurious : ∃ report whole, Validation.run strayDocument = .ok report ∧
    report.errors = ["Failed parsing datasets: Expected mapping at datasets[1]",
      "Layer a: no dataset matching dataId 'd'"] ∧
    ofFields .null strayDocument = .ok whole ∧ whole.report.count? = some ⟨1, 1, 0⟩ ∧
    Spurious .null strayDocument report := by
  obtain ⟨report, whole, hreport, herrors, hwhole, hcount⟩ : ∃ report whole,
      Validation.run strayDocument = .ok report ∧
      report.errors = ["Failed parsing datasets: Expected mapping at datasets[1]",
        "Layer a: no dataset matching dataId 'd'"] ∧
      ofFields .null strayDocument = .ok whole ∧ whole.report.count? = some ⟨1, 1, 0⟩ :=
    ⟨_, _, rfl, rfl, rfl, rfl⟩
  refine ⟨report, whole, hreport, herrors, hwhole, hcount, by simp [herrors], ?_, ?_⟩
  · rintro ⟨fault, hfault, -⟩
    simp [hwhole] at hfault
  · rintro ⟨other, hother, hdropped⟩
    rw [hwhole, Except.ok.injEq] at hother
    subst hother
    simp [CompileReport.dropped, hcount] at hdropped

end CompiledMap

end MapLayers
