import MapLayers.Json.Writer
import MapLayers.Proofs.Entries

/-!
# Keyed documents

A document is keyed if no object in it has a key twice. Sorting the fields of all objects leaves it so, and
makes none of its numbers longer.
-/

namespace MapLayers.Json

inductive Keyed : Json → Prop
  | null : Keyed null
  | bool (value : Bool) : Keyed (bool value)
  | int (value : Int) : Keyed (int value)
  | float (value : Float) : Keyed (float value)
  | text (value : String) : Keyed (text value)
  | list {items : List Json} : (∀ item ∈ items, Keyed item) → Keyed (list items)
  | object {fields : Fields} : fields.Distinct → (∀ field ∈ fields, Keyed field.2) →
    Keyed (object fields)

variable {document item : Json} {items : List Json} {fields : Fields} {field : String × Json}

theorem sortItems_eq_map (items : List Json) : sortItems items = items.map sortFields := by
  induction items with
  | nil => rfl
  | cons item rest ih => rw [sortItems, ih, List.map_cons]

theorem sortValues_eq_map (fields : Fields) :
    sortValues fields = fields.map fun field => (field.1, sortFields field.2) := by
  induction fields with
  | nil => rfl
  | cons field rest ih => rw [sortValues, ih, List.map_cons]

theorem arranged_perm (sorted : Bool) (fields : Fields) : (arranged sorted fields).Perm fields := by
  unfold arranged
  split
  · exact List.mergeSort_perm fields _
  · exact .refl fields

theorem forall_mem_arranged {motive : String × Json → Prop} (sorted : Bool)
    (h : ∀ field ∈ fields, motive field) : ∀ field ∈ arranged sorted fields, motive field :=
  fun field hfield => h field ((arranged_perm sorted fields).mem_iff.mp hfield)

theorem Keyed.sortFields (h : Keyed document) : Keyed document.sortFields := by
  induction h with
  | null | bool | int | float | text => constructor
  | list _ ih =>
    rw [Json.sortFields, sortItems_eq_map]
    exact .list (List.forall_mem_map.mpr ih)
  | @object fields hdistinct _ ih =>
    rw [Json.sortFields, sortValues_eq_map]
    have hperm := (arranged_perm true (fields.map fun field => (field.1, field.2.sortFields))).map Prod.fst
    refine .object ?_ (forall_mem_arranged true (List.forall_mem_map.mpr ih))
    exact hperm.nodup_iff.mpr (hdistinct.map Json.sortFields)

theorem itemsFit_iff : itemsFit items = true ↔ ∀ item ∈ items, item.wholesFit = true := by
  induction items with
  | nil => simp [itemsFit]
  | cons item rest ih => simp [itemsFit, ih]

theorem fieldsFit_iff : fieldsFit fields = true ↔ ∀ field ∈ fields, field.2.wholesFit = true := by
  induction fields with
  | nil => simp [fieldsFit]
  | cons field rest ih => simp [fieldsFit, ih]

theorem Keyed.wholesFit_sortFields (h : Keyed document) (hfits : document.wholesFit = true) :
    document.sortFields.wholesFit = true := by
  induction h with
  | null | bool | int | float | text => exact hfits
  | list _ ih =>
    rw [wholesFit, itemsFit_iff] at hfits
    rw [Json.sortFields, sortItems_eq_map, wholesFit, itemsFit_iff]
    exact List.forall_mem_map.mpr fun item hitem => ih item hitem (hfits item hitem)
  | object _ _ ih =>
    rw [wholesFit, fieldsFit_iff] at hfits
    rw [Json.sortFields, sortValues_eq_map, wholesFit, fieldsFit_iff]
    exact forall_mem_arranged true
      (List.forall_mem_map.mpr fun field hfield => ih field hfield (hfits field hfield))

end MapLayers.Json
