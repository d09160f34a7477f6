import MapLayers.Json.Access
import MapLayers.Proofs.Entries

/-!
# Values and their parts

How the parts of a document value follow from its kind and from what was written into it.
-/

namespace MapLayers

/-- Numbers are equal that stand at the same place. -/
theorem Number.same_iff {m n : Number} :
    m.same n = true ↔ m.position? = n.position? ∧ m.position?.isSome = true := by
  unfold same
  cases m.position? <;> cases n.position? <;> simp

end MapLayers

namespace MapLayers.Json

/-- The items of a list; everything else has none. -/
def itemsOrNone : Json → List Json
  | list items => items
  | _ => []

@[simp] theorem fieldsOrNone_object (fields : Fields) : (object fields).fieldsOrNone = fields := rfl

@[simp] theorem itemsOrNone_list (items : List Json) : (list items).itemsOrNone = items := rfl

@[simp] theorem fieldsOrNone_null : null.fieldsOrNone = [] := rfl

@[simp] theorem itemsOrNone_null : null.itemsOrNone = [] := rfl

/-- What does not count as there has no items. -/
theorem itemsOrNone_of_not_truthy {value : Json} (h : value.truthy = false) :
    value.itemsOrNone = [] := by
  cases value with
  | list items => simpa [truthy] using h
  | _ => rfl

theorem isTheText_iff (value : Json) (s : String) : value.isTheText s = true ↔ value = .text s := by
  cases value <;> simp [isTheText]

theorem orElse_of_truthy {value : Json} (h : value.truthy = true) (other : Json) :
    value.orElse other = value := by
  simp [orElse, h]

/-- A value that is absent or an object gives its fields. -/
theorem orElse_object {value : Json} (h : value.truthy = true → value.isObject = true) :
    value.orElse (.object []) = .object value.fieldsOrNone := by
  cases value with
  | object fields => cases fields <;> rfl
  | _ => simp_all [orElse, isObject, fieldsOrNone]

theorem orElse_list {value : Json} (h : value.truthy = true → value.isList = true) :
    value.orElse (.list []) = .list value.itemsOrNone := by
  cases value with
  | list items => cases items <;> rfl
  | _ => simp_all [orElse, isList, itemsOrNone]

theorem eq_object_of_isObject {value : Json} (h : value.isObject = true) :
    value = .object value.fieldsOrNone := by
  cases value <;> simp_all [isObject, fieldsOrNone]

theorem eq_text_of_isText {value : Json} (h : value.isText = true) : ∃ s, value = .text s := by
  cases value <;> simp_all [isText]

@[simp] theorem fieldOf_nil (key : String) : fieldOf [] key = .null := rfl

@[simp] theorem fieldOf_set_self (fields : Fields) (key : String) (value : Json) :
    fieldOf (Entries.set fields key value) key = value := by
  simp [fieldOf, Entries.get?_set_self]

theorem fieldOf_set_of_ne (fields : Fields) {key other : String} (value : Json) (h : key ≠ other) :
    fieldOf (Entries.set fields key value) other = fieldOf fields other := by
  simp [fieldOf, Entries.get?_set_of_ne fields value h]

theorem lookup_eq_ok_iff {value found : Json} {key : String} :
    value.lookup key = .ok found ↔
      value.isObject = true ∧ found = fieldOf value.fieldsOrNone key := by
  cases value <;> simp [lookup, isObject, fieldsOrNone, eq_comm]

/-- Looking up a field reads nothing from a value that counts as absent. -/
theorem eq_fieldOf_of_lookup_orElse {value found : Json} {key : String}
    (h : (value.orElse (.object [])).lookup key = .ok found) :
    found = fieldOf value.fieldsOrNone key := by
  cases htruthy : value.truthy with
  | true =>
    rw [orElse_of_truthy htruthy] at h
    exact (lookup_eq_ok_iff.mp h).2
  | false =>
    rw [orElse_object (by simp [htruthy])] at h
    exact (lookup_eq_ok_iff.mp h).2

/-- A field that is not null can be taken. -/
theorem field_eq_ok {value : Json} {key : String}
    (h : fieldOf value.fieldsOrNone key ≠ .null) :
    value.field key = .ok (fieldOf value.fieldsOrNone key) := by
  cases value with
  | object fields =>
    cases hfound : Entries.get? fields key with
    | none => simp [fieldsOrNone, fieldOf, hfound] at h
    | some found => simp [field, select, fieldsOrNone, fieldOf, hfound]
  | _ => exact absurd rfl h

theorem lookup_letter {s key : String} {label value : Json} (hlabel : label ∈ letters s) :
    label.lookup key ≠ .ok value := by
  obtain ⟨letter, -, rfl⟩ := List.mem_map.mp hlabel
  simp [lookup]

theorem mem_of_itemAt {items : List Json} {position : Int} {item : Json}
    (h : itemAt items position = .ok item) : item ∈ items := by
  unfold itemAt at h
  generalize (if position < 0 then position + items.length else position) = index at h
  dsimp only at h
  split at h
  · simp at h
  · split at h
    · next found hfound =>
      rw [← Except.ok.inj h]
      exact List.mem_of_getElem? hfound
    · simp at h

/-- What equality of scalars goes by: a text, a place on the line of numbers, or null. -/
inductive Essence where
  | nothing
  | text (s : String)
  | number (place : Extended)

/-- Lists and objects have none, and neither has NaN. -/
def essence? : Json → Option Essence
  | null => some .nothing
  | text s => some (.text s)
  | value => (value.quantity?.bind Number.position?).map .number

/-- Scalars are equal if they have the same essence; what has none equals nothing, not even itself. -/
theorem same_iff {a b : Json} (ha : a.hashable = true) (hb : b.hashable = true) :
    a.same b = true ↔ a.essence? = b.essence? ∧ a.essence?.isSome = true := by
  have hinjective : Function.Injective (Option.map Essence.number) :=
    Option.map_injective fun _ _ => Essence.number.inj
  have hnothing : ∀ p, some Essence.nothing ≠ Option.map .number p := by
    rintro (_ | _) <;> simp
  have htext : ∀ s p, some (Essence.text s) ≠ Option.map .number p := by
    rintro s (_ | _) <;> simp
  cases a <;> cases b <;>
    simp_all [same, hashable, essence?, quantity?, number?, Number.same_iff, hinjective.eq_iff]

/-- NaN has no essence. -/
theorem isNaN_iff {a : Json} (ha : a.hashable = true) : a.isNaN = true ↔ a.essence? = none := by
  cases a with
  | float x =>
    simp only [isNaN, essence?, quantity?, number?, Option.bind_some, Number.position?]
    cases hvalue : Binary64.value? x with
    | some q =>
      have hnan : Binary64.isNaN x = false := by
        unfold Binary64.isNaN
        unfold Binary64.value? Binary64.isFinite at hvalue
        cases hfield : decide (Binary64.exponentField x = 2047) <;> simp_all
      simp [hnan]
    | none => cases Binary64.isNaN x <;> cases Binary64.signBit x <;> simp
  | list items => simp [hashable] at ha
  | object fields => simp [hashable] at ha
  | _ => simp [isNaN, essence?, quantity?, number?, Number.position?]

theorem same_self {a : Json} (ha : a.hashable = true) (hnan : a.isNaN = false) : a.same a = true := by
  refine (same_iff ha ha).mpr ⟨rfl, Option.isSome_iff_ne_none.mpr fun hnone => ?_⟩
  rw [(isNaN_iff ha).mpr hnone] at hnan
  exact absurd hnan (by decide)

theorem same_of_isNaN {a b : Json} (ha : a.hashable = true) (hb : b.hashable = true)
    (hnan : a.isNaN = true) : a.same b = false := by
  refine Bool.eq_false_iff.mpr fun hsame => ?_
  have hsome := ((same_iff ha hb).mp hsame).2
  rw [(isNaN_iff ha).mp hnan] at hsome
  exact Bool.false_ne_true hsome

theorem same_symm {a b : Json} (ha : a.hashable = true) (hb : b.hashable = true)
    (h : a.same b = true) : b.same a = true := by
  obtain ⟨hequal, hsome⟩ := (same_iff ha hb).mp h
  exact (same_iff hb ha).mpr ⟨hequal.symm, hequal ▸ hsome⟩

theorem same_trans {a b c : Json} (ha : a.hashable = true) (hb : b.hashable = true)
    (hc : c.hashable = true) (hab : a.same b = true) (hbc : b.same c = true) :
    a.same c = true := by
  obtain ⟨hequal, hsome⟩ := (same_iff ha hb).mp hab
  exact (same_iff ha hc).mpr ⟨hequal.trans ((same_iff hb hc).mp hbc).1, hsome⟩

end MapLayers.Json
