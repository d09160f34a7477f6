import MapLayers.Proofs.Assembled

/-!
# Entries of the dataset list

When an entry describes a dataset, and when a whole list loads without leaving an entry out. Where it
does, the compiler and the validator work on the same datasets.
-/

namespace MapLayers.Dataset

/-- What makes an entry unusable. -/
def MalformedEntry (entry : Json) : Prop :=
  entry.isObject = false ∨
  (∀ s, Json.fieldOf entry.fieldsOrNone "id" = .text s → Text.isBlankText s = true) ∨
  ((Json.fieldOf entry.fieldsOrNone "schema").isNull = false ∧
    (Json.fieldOf entry.fieldsOrNone "schema").isList = false)

theorem requireText_fails_iff {value : Json} {name : String} :
    (requireText value name).toOption = none ↔
      ∀ s, value = .text s → Text.isBlankText s = true := by
  cases value with
  | text s => cases hblank : Text.isBlankText s <;> simp [requireText, hblank, Except.toOption]
  | _ => simp [requireText, Except.toOption]

theorem ofFields_eq (fields : Json.Fields) : (ofFields fields).toOption =
    if !(Json.fieldOf fields "schema").isNull && !(Json.fieldOf fields "schema").isList then none
    else (requireText (Json.fieldOf fields "id") "id").toOption.map fun id =>
      ⟨id, Json.fieldOf fields "providerId", Json.fieldOf fields "type",
        Json.fieldOf fields "data", Json.fieldOf fields "schema"⟩ := by
  unfold ofFields
  dsimp only
  split
  · rfl
  · cases requireText (Json.fieldOf fields "id") "id" <;> rfl

theorem ofEntry?_eq_none_iff {entry : Json} : ofEntry? entry = none ↔ MalformedEntry entry := by
  unfold MalformedEntry
  cases entry with
  | object fields =>
    have hid := @requireText_fails_iff (Json.fieldOf fields "id") "id"
    simp only [ ofEntry?, ofFields_eq, Json.isObject, Json.fieldsOrNone_object]
    cases (Json.fieldOf fields "schema").isNull <;> cases (Json.fieldOf fields "schema").isList <;>
      simp [hid]
  | _ => simp [ ofEntry?, Json.isObject]

/-- A list loads as a whole exactly when none of its entries is malformed. -/
theorem ofEntries_isOk_iff {position : Nat} {entries : List Json} :
    (∃ datasets, ofEntries position entries = .ok datasets) ↔
      ∀ entry ∈ entries, ¬MalformedEntry entry := by
  induction entries generalizing position with
  | nil => simp [ofEntries]
  | cons entry rest ih =>
    have hentry : (∃ dataset, ofEntry position entry = .ok dataset) ↔ ¬MalformedEntry entry := by
      rw [← ofEntry?_eq_none_iff, ofEntry?_eq position]
      cases ofEntry position entry <;> simp [Except.toOption]
    rw [List.forall_mem_cons, ← hentry, ← @ih (position + 1)]
    simp only [ofEntries, Result.bind_eq_ok_iff, Result.pure_eq_ok_iff]
    constructor
    · rintro ⟨_, dataset, hdataset, others, hothers, -⟩
      exact ⟨⟨dataset, hdataset⟩, others, hothers⟩
    · rintro ⟨⟨dataset, hdataset⟩, others, hothers⟩
      exact ⟨_, dataset, hdataset, others, hothers, rfl⟩

/-- The value in the place of the datasets that cannot be loaded as a whole. -/
def MalformedList (value : Json) : Prop :=
  (value.isNull = false ∧ value.isList = false) ∨ ∃ entry ∈ value.itemsOrNone, MalformedEntry entry

theorem load_isOk_iff {value : Json} :
    (∃ datasets, load value = .ok datasets) ↔ ¬MalformedList value := by
  cases value with
  | list entries =>
    simp [load, MalformedList, ofEntries_isOk_iff, Json.isList, Json.itemsOrNone]
  | _ => simp [load, MalformedList, Json.isNull, Json.isList, Json.itemsOrNone]

theorem ofEntries_wellFormed {position : Nat} {entries : List Json} {datasets : List Dataset}
    (h : ofEntries position entries = .ok datasets) :
    wellFormed position entries = .ok (datasets, []) := by
  induction entries generalizing position datasets with
  | nil =>
    rw [ofEntries, Except.ok.injEq] at h
    subst h
    rfl
  | cons entry rest ih =>
    simp only [ofEntries, Result.bind_eq_ok_iff, Result.pure_eq_ok_iff] at h
    obtain ⟨dataset, hdataset, others, hothers, rfl⟩ := h
    simp only [wellFormed, hdataset, ih hothers]
    rfl

/-- Datasets that load as a whole are those that load with malformed entries left out. -/
theorem load_wellFormed {value : Json} {datasets : List Dataset} (h : load value = .ok datasets) :
    loadWellFormed value = .ok (datasets, []) := by
  cases value with
  | null =>
    rw [load, Except.ok.injEq] at h
    subst h
    rfl
  | list entries => exact ofEntries_wellFormed h
  | _ => simp [load] at h

end MapLayers.Dataset
