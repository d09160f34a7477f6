import MapLayers.Proofs.ValidatedLayers

/-!
# Where validation fails

The validator is there for malformed documents, so whatever it is given should end in a report. It does,
except at one place: it looks the type of a layer up among the supported ones, and a list or an object
cannot be looked up. The compiler reads such a layer as malformed and only leaves it out.
-/

namespace MapLayers.Validation

open MapDocument (Malformed layerList)

variable {datasets : List Dataset} {position : Nat} {entry : Json} {fault : Fault}

/-- The type of an entry is a list or an object. -/
def CompoundType (entry : Json) : Prop :=
  (Json.fieldOf entry.fieldsOrNone "type").hashable = false

theorem typeWarnings_eq_error_iff (label : Json) {type : Json} :
    typeWarnings label type = .error fault ↔ type.hashable = false ∧ fault = .typeMismatch := by
  cases htype : type.hashable with
  | true =>
    obtain ⟨warnings, hwarnings⟩ := typeWarnings_total label htype
    simp [hwarnings]
  | false =>
    have hfails : typeWarnings label type = .error .typeMismatch := by
      simp [typeWarnings, LayerType.ofJson, htype, Fault.typeMismatch]
    simp [hfails, eq_comm]

theorem entryReport_eq_error_iff : entryReport datasets position entry = .error fault ↔
    CompoundType entry ∧ fault = .typeMismatch := by
  unfold CompoundType
  cases entry with
  | object fields =>
    rw [Json.fieldsOrNone_object, ← typeWarnings_eq_error_iff (labelOf position fields)]
    simp only [entryReport, Result.bind_eq_error_iff, Result.pure_not_error, and_false,
      exists_false, or_false]
  | _ => simp [entryReport, Json.fieldsOrNone, Json.hashable]

theorem entryReports_eq_error_iff (datasets : List Dataset) (position : Nat)
    {entries : List Json} :
    entryReports datasets position entries = .error fault ↔
      (∃ entry ∈ entries, CompoundType entry) ∧ fault = .typeMismatch := by
  induction entries generalizing position with
  | nil => simp [entryReports]
  | cons entry rest ih =>
    simp only [entryReports, Result.bind_eq_error_iff, Result.pure_not_error, and_false, exists_false,
      or_false, entryReport_eq_error_iff, ih, List.mem_cons, exists_eq_or_imp]
    constructor
    · rintro (⟨hentry, hfault⟩ | ⟨_, -, hrest, hfault⟩)
      · exact ⟨.inl hentry, hfault⟩
      · exact ⟨.inr hrest, hfault⟩
    · rintro ⟨hbad, hfault⟩
      cases hreport : entryReport datasets position entry with
      | error other =>
        exact .inl ⟨(entryReport_eq_error_iff.mp hreport).1, hfault⟩
      | ok finding =>
        refine .inr ⟨finding, rfl, hbad.resolve_left fun hentry => ?_, hfault⟩
        have hfails : entryReport datasets position entry = .error .typeMismatch :=
          entryReport_eq_error_iff.mpr ⟨hentry, rfl⟩
        simp [hreport] at hfails

/-- Validation fails exactly on documents of the right outer structure in which a layer has a list or an
object as its type; on every other document it gives a report. -/
theorem validation_fails_iff {fields : Json.Fields} :
    run fields = .error fault ↔
      ¬Malformed fields ∧ (∃ entry ∈ layerList fields, CompoundType entry) ∧
        fault = .typeMismatch := by
  by_cases hbad : Malformed fields
  · obtain ⟨report, hreport, -⟩ := run_of_malformed hbad
    simp [hreport, hbad]
  · have hrun := run_of_not_malformed hbad
    dsimp only at hrun
    rw [hrun, ← entryReports_eq_error_iff (datasetReport _).1 0]
    simp only [hbad, not_false_eq_true, true_and]
    cases entryReports (datasetReport (Json.fieldOf fields "datasets")).1 0 (layerList fields) <;>
      simp [Except.map]

/-- A document with a layer whose type stands in a list. -/
def listedTypeDocument : Json.Fields :=
  [("datasets", .list [.object [("id", .text "d"), ("data", .list [])]]),
    ("keplerMapConfig", .object [("version", .text "v1"), ("config", .object [("visState", .object
      [("layers", .list [.object [("id", .text "a"), ("type", .list [.text "mvt"]),
        ("config", .object [("dataId", .text "d")])]])])])])]

/-- Validation fails where the compiler drops the layer and goes on. -/
theorem listed_type_fails : run listedTypeDocument = .error .typeMismatch ∧
    ∃ whole, CompiledMap.ofFields .null listedTypeDocument = .ok whole ∧
      whole.report.messages.errors =
        ["Layer a dropped: Malformed layer: Expected non-empty string for 'type'"] :=
  ⟨rfl, _, rfl, rfl⟩

end MapLayers.Validation
