import MapLayers.Calls
import MapLayers.Proofs.Entries

/-!
# Paths into props

A path names a field of a prop, a field of that field, and so on. Plain data has no accessor at the end
of any path, and a path to an accessor ends there.
-/

namespace MapLayers

namespace PropValue

theorem at?_cons (value : PropValue) (key : String) (rest : List String) :
    value.at? (key :: rest) =
      (Entries.get? value.fields (.field key)).bind fun inner => inner.at? rest := by
  rw [at?]
  cases Entries.get? value.fields (.field key) <;> rfl

theorem get?_ofProps (props : Props) (key : String) :
    Entries.get? (ofProps props).fields (.field key) = Entries.get? props key := by
  show Entries.get? (props.map fun entry => (PropKey.field entry.1, entry.2)) (.field key) = _
  induction props with
  | nil => rfl
  | cons entry rest ih =>
    obtain ⟨other, value⟩ := entry
    rw [List.map_cons, Entries.get?_cons, Entries.get?_cons, ih]
    rfl

theorem get?_ofFields (fields : Json.Fields) (key : String) :
    Entries.get? (ofFields fields) (.field key) = (Entries.get? fields key).map ofJson := by
  induction fields with
  | nil => rfl
  | cons entry rest ih =>
    obtain ⟨other, value⟩ := entry
    rw [ofFields, Entries.get?_cons, Entries.get?_cons, ih,
      show (PropKey.field other == .field key) = (other == key) from rfl]
    split <;> rfl

/-- A prop that no path leads from to an accessor. -/
def Plain (value : PropValue) : Prop := ∀ path a, value.at? path ≠ some (.accessor a)

/-- A prop without fields is plain, unless it is an accessor itself. -/
theorem Plain.of_leaf {value : PropValue} (hleaf : value.fields = [])
    (hself : ∀ a, value ≠ .accessor a) : value.Plain := by
  intro path a h
  cases path with
  | nil => exact hself a (Option.some.inj h)
  | cons key rest =>
    rw [at?_cons, hleaf] at h
    simp at h

theorem Plain.text (s : String) : (PropValue.text s).Plain :=
  .of_leaf rfl (by simp)

theorem Plain.int (n : Int) : (PropValue.int n).Plain :=
  .of_leaf rfl (by simp)

theorem Plain.bool (b : Bool) : (PropValue.bool b).Plain :=
  .of_leaf rfl (by simp)

theorem Plain.record {fields : List (PropKey × PropValue)}
    (h : ∀ entry ∈ fields, entry.2.Plain) : (PropValue.record fields).Plain := by
  intro path a hfound
  cases path with
  | nil => simp [at?] at hfound
  | cons key rest =>
    rw [at?_cons, Option.bind_eq_some_iff] at hfound
    obtain ⟨inner, hinner, hfound⟩ := hfound
    obtain ⟨entry, hentry, rfl⟩ := Entries.mem_of_get? hinner
    exact h entry hentry rest a hfound

/-- Plain data has no accessors. -/
theorem Plain.ofJson (value : Json) : (PropValue.ofJson value).Plain := by
  intro path
  induction path generalizing value with
  | nil => cases value <;> simp [at?, PropValue.ofJson]
  | cons key rest ih =>
    intro a h
    rw [at?_cons, Option.bind_eq_some_iff] at h
    obtain ⟨inner, hinner, h⟩ := h
    cases value with
    | object fields =>
      rw [show (PropValue.ofJson (.object fields)).fields = PropValue.ofFields fields by
        simp [PropValue.ofJson, PropValue.fields], get?_ofFields, Option.map_eq_some_iff] at hinner
      obtain ⟨value, -, rfl⟩ := hinner
      exact ih value a h
    | _ => simp [PropValue.ofJson, PropValue.fields] at hinner

/-- A path into an accessor ends at once. -/
theorem at?_accessor {a b : Accessor} {path : List String} :
    (PropValue.accessor a).at? path = some (.accessor b) ↔ path = [] ∧ a = b := by
  cases path with
  | nil => simp [at?]
  | cons key rest => simp [at?_cons, fields]

end PropValue

/-- Whether a path leads to an accessor. -/
def Props.Holds (props : Props) (path : List String) (a : Accessor) : Prop :=
  (PropValue.ofProps props).at? path = some (.accessor a)

namespace Props

variable {props : Props} {a : Accessor}

theorem holds_cons {key : String} {rest : List String} :
    Holds props (key :: rest) a ↔
      ∃ value, Entries.get? props key = some value ∧ value.at? rest = some (.accessor a) := by
  rw [Holds, PropValue.at?_cons, PropValue.get?_ofProps, Option.bind_eq_some_iff]

theorem not_holds_nil : ¬Holds props [] a := by
  simp [Holds, PropValue.at?, PropValue.ofProps]

end Props

theorem LayerDescriptor.accessorAt?_eq_some_iff {d : LayerDescriptor} {path : List String}
    {a : Accessor} : d.accessorAt? path = some a ↔ Props.Holds d.props path a := by
  unfold accessorAt? Props.Holds
  split
  · next found hfound => simp [hfound]
  · next hnone => simpa using fun hfound => hnone a hfound

end MapLayers
