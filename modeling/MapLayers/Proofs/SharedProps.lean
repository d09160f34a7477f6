import Mathlib.Data.List.Forall2
import MapLayers.Proofs.WrittenValues

/-!
# Shared props

A layer of a map and the object that is made to write it refer to the same props. To leave the data out the
props are not changed where they stand. Props without data are put at an address of their own, and it is
the new object that is made to refer to them. So whatever stood anywhere before still stands there.
-/

namespace MapLayers

inductive Cell where
  | props (entries : Props)
  | layer (type : String) (props : Nat) (filters : Json)

abbrev Store := List Cell

namespace Store

def layer? (s : Store) (address : Nat) : Option LayerDescriptor :=
  match s[address]? with
  | some (.layer type props filters) =>
    match s[props]? with
    | some (.props entries) => some ⟨type, entries, filters⟩
    | _ => none
  | _ => none

def copyLayer (s : Store) (address : Nat) : Option (Nat × Store) :=
  match s[address]? with
  | some (.layer type props filters) => some (s.length, s ++ [.layer type props filters])
  | _ => none

def copyLayers (s : Store) : List Nat → Option (List Nat × Store)
  | [] => some ([], s)
  | address :: rest => do
    let (copy, s) ← s.copyLayer address
    let (copies, s) ← s.copyLayers rest
    return (copy :: copies, s)

/-- Makes a layer refer to new props without data. -/
def dropData (s : Store) (address : Nat) : Option Store :=
  match s[address]? with
  | some (.layer type props filters) =>
    match s[props]? with
    | some (.props entries) =>
      some ((s ++ [Cell.props (entries.erase "data")]).set address (.layer type s.length filters))
    | _ => none
  | _ => none

def objectsFor (includeData : Bool) (s : Store) (addresses : List Nat) :
    Option (List Nat × Store) := do
  let (copies, s) ← s.copyLayers addresses
  if includeData then return (copies, s)
  return (copies, ← copies.foldlM dropData s)

/-- Some addresses stand for some layers. -/
def Holds (s : Store) (addresses : List Nat) (layers : List LayerDescriptor) : Prop :=
  List.Forall₂ (fun address layer => s.layer? address = some layer) addresses layers

variable {s : Store} {address : Nat} {layer : LayerDescriptor}

theorem layer?_eq_some_iff : s.layer? address = some layer ↔
    ∃ props, s[address]? = some (.layer layer.type props layer.filters) ∧
      s[props]? = some (.props layer.props) := by
  unfold layer?
  constructor
  · intro h
    split at h
    · next type props filters haddress =>
      split at h
      · next entries hprops =>
        obtain rfl := Option.some.inj h
        exact ⟨props, haddress, hprops⟩
      · simp at h
    · simp at h
  · rintro ⟨props, haddress, hprops⟩
    simp [haddress, hprops]

theorem layer?_append (h : s.layer? address = some layer) (extra : Store) :
    (s ++ extra).layer? address = some layer := by
  have hkeeps {place : Nat} {cell : Cell} (h : s[place]? = some cell) :
      (s ++ extra)[place]? = some cell := by
    rw [List.getElem?_append_left (List.getElem?_eq_some_iff.mp h).1, h]
  obtain ⟨props, haddress, hprops⟩ := layer?_eq_some_iff.mp h
  exact layer?_eq_some_iff.mpr ⟨props, hkeeps haddress, hkeeps hprops⟩

theorem copyLayer_eq (h : s.layer? address = some layer) :
    ∃ extra, s.copyLayer address = some (s.length, s ++ [extra]) ∧
      (s ++ [extra]).layer? s.length = some layer := by
  obtain ⟨props, haddress, hprops⟩ := layer?_eq_some_iff.mp h
  refine ⟨.layer layer.type props layer.filters, by simp [copyLayer, haddress], ?_⟩
  refine layer?_eq_some_iff.mpr ⟨props, by simp, ?_⟩
  rw [List.getElem?_append_left (List.getElem?_eq_some_iff.mp hprops).1, hprops]

variable {addresses : List Nat} {layers : List LayerDescriptor}

theorem copyLayers_eq (h : s.Holds addresses layers) : ∃ extra,
    s.copyLayers addresses = some (List.range' s.length addresses.length, s ++ extra) ∧
      (s ++ extra).Holds (List.range' s.length addresses.length) layers := by
  induction addresses generalizing s layers with
  | nil =>
    cases h
    exact ⟨[], by simp [copyLayers], .nil⟩
  | cons address rest ih =>
    cases h with
    | @cons _ layer _ others hlayer hrest =>
      obtain ⟨first, hcopy, hfirst⟩ := copyLayer_eq hlayer
      have hkept : (s ++ [first]).Holds rest others := hrest.imp fun _ _ h => layer?_append h [first]
      obtain ⟨extra, hcopies, hextra⟩ := ih hkept
      have hlength : (s ++ [first]).length = s.length + 1 := by simp
      rw [hlength] at hcopies hextra
      refine ⟨first :: extra, ?_, ?_⟩
      · simp [copyLayers, hcopy, hcopies, List.range'_succ]
      · have hmoved : s ++ first :: extra = (s ++ [first]) ++ extra := by simp
        rw [hmoved, List.length_cons, List.range'_succ]
        exact .cons (layer?_append hfirst extra) hextra

theorem dropData_eq (h : s.layer? address = some layer) : ∃ next, s.dropData address = some next ∧
    next.layer? address = some (CompiledMap.withoutData layer) ∧
    (∀ place cell, place ≠ address → s[place]? = some cell → next[place]? = some cell) ∧
    (∀ other found, other ≠ address → s.layer? other = some found → next.layer? other = some found) := by
  obtain ⟨props, haddress, hprops⟩ := layer?_eq_some_iff.mp h
  obtain ⟨hlt, -⟩ := List.getElem?_eq_some_iff.mp haddress
  let fresh : Store := s ++ [.props (layer.props.erase "data")]
  have hdrop : s.dropData address =
      some (fresh.set address (.layer layer.type s.length layer.filters)) := by
    simp [dropData, haddress, hprops, fresh]
  have hplaces : ∀ place cell, place ≠ address → s[place]? = some cell →
      (fresh.set address (.layer layer.type s.length layer.filters))[place]? = some cell := by
    intro place cell hne hcell
    rw [List.getElem?_set_ne (Ne.symm hne),
      List.getElem?_append_left (List.getElem?_eq_some_iff.mp hcell).1, hcell]
  refine ⟨_, hdrop, layer?_eq_some_iff.mpr ⟨s.length, ?_, ?_⟩, hplaces, ?_⟩
  · rw [List.getElem?_set_self (by simp [fresh]; omega)]
    rfl
  · rw [List.getElem?_set_ne (by omega)]
    simp [fresh, CompiledMap.withoutData]
  · intro other found hne hother
    obtain ⟨shared, hplace, hshared⟩ := layer?_eq_some_iff.mp hother
    -- The props of the other layer cannot stand where this layer does.
    have hdiffers : shared ≠ address := by
      rintro rfl
      rw [haddress] at hshared
      simp at hshared
    exact layer?_eq_some_iff.mpr
      ⟨shared, hplaces other _ hne hplace, hplaces shared _ hdiffers hshared⟩

theorem foldlM_dropData {before : Nat} (hfresh : ∀ address ∈ addresses, before ≤ address)
    (hnodup : addresses.Nodup) (h : s.Holds addresses layers) :
    ∃ final, addresses.foldlM dropData s = some final ∧
      final.Holds addresses (layers.map CompiledMap.withoutData) ∧
      (∀ place cell, place < before → s[place]? = some cell → final[place]? = some cell) ∧
      (∀ other found, other ∉ addresses → s.layer? other = some found →
        final.layer? other = some found) := by
  induction addresses generalizing s layers with
  | nil =>
    cases h
    exact ⟨s, rfl, .nil, fun _ _ _ h => h, fun _ _ _ h => h⟩
  | cons address rest ih =>
    cases h with
    | @cons _ layer _ others hlayer hrest =>
      obtain ⟨hnot, hnodup⟩ := List.nodup_cons.mp hnodup
      obtain ⟨hhere, hfresh⟩ := List.forall_mem_cons.mp hfresh
      obtain ⟨next, hnext, hdropped, hplaces, hothers⟩ := dropData_eq hlayer
      have hkept : next.Holds rest others := by
        have hoff : ∀ other ∈ rest, other ≠ address := fun other hother =>
          ne_of_mem_of_not_mem hother hnot
        exact ((List.forall₂_and_left rest others).mpr ⟨hoff, hrest⟩).imp fun other found hother =>
          hothers other found hother.1 hother.2
      obtain ⟨final, hfinal, hholds, hbefore, hoff⟩ := ih hfresh hnodup hkept
      refine ⟨final, ?_, .cons (hoff address _ hnot hdropped) hholds, ?_, ?_⟩
      · rw [List.foldlM_cons, hnext]
        exact hfinal
      · intro place cell hplace hcell
        exact hbefore place cell hplace (hplaces place cell (by omega) hcell)
      · intro other found hother hfound
        rw [List.mem_cons, not_or] at hother
        exact hoff other found hother.2 (hothers other found hother.1 hfound)

theorem objectsFor_eq (includeData : Bool) (h : s.Holds addresses layers) :
    ∃ objects final, s.objectsFor includeData addresses = some (objects, final) ∧
      final.Holds objects (if includeData then layers else layers.map CompiledMap.withoutData) ∧
      ∀ (place : Nat) (cell : Cell), s[place]? = some cell → final[place]? = some cell := by
  obtain ⟨extra, hcopies, hholds⟩ := copyLayers_eq h
  have hstays : ∀ (place : Nat) (cell : Cell), s[place]? = some cell → (s ++ extra)[place]? = some cell := by
    intro place cell hcell
    rw [List.getElem?_append_left (List.getElem?_eq_some_iff.mp hcell).1, hcell]
  cases includeData with
  | true => exact ⟨_, _, by simp [objectsFor, hcopies], hholds, hstays⟩
  | false =>
    have hfresh : ∀ address ∈ List.range' s.length addresses.length, s.length ≤ address :=
      fun address haddress => (List.mem_range'_1.mp haddress).1
    obtain ⟨final, hfinal, hdropped, hbefore, -⟩ :=
      foldlM_dropData hfresh List.nodup_range' hholds
    refine ⟨_, final, by simp [objectsFor, hcopies, hfinal], hdropped, fun place cell hcell => ?_⟩
    have hplace : place < s.length := (List.getElem?_eq_some_iff.mp hcell).1
    exact hbefore place cell hplace (hstays place cell hcell)

end Store

namespace CompiledMap

open NestedValue (IsPlain ofProp)

/-- What writing makes of any value, and of a map with and without its data. -/
structure WrittenForms {κ α : Type} (kind : KeyKind κ) (value : NestedValue κ α) (m : CompiledMap)
    (placeholder : String) : Prop where
  plain : IsPlain kind (value.jsonable kind placeholder)
  again : ∀ other,
    (value.jsonable kind placeholder).jsonable kind other = value.jsonable kind placeholder
  /-- Props are among the values: it is their document that writing makes of them. -/
  props : ∀ prop : PropValue, (ofProp prop).jsonable PropKey.kind placeholder =
    ofProp (.ofJson (prop.toJson (.text placeholder)))
  without_data :
    m.toJson (.text placeholder) false = withoutLayerData (m.toJson (.text placeholder) true)
  /-- Wherever the layers of the map stand, objects are made that are written as the map is, and
  everything that stood anywhere before is as it was. -/
  unchanged : ∀ includeData (s : Store) addresses, s.Holds addresses m.layers →
    ∃ objects final written, s.objectsFor includeData addresses = some (objects, final) ∧
      final.Holds objects written ∧
      toJson (.text placeholder) true { m with layers := written } =
        m.toJson (.text placeholder) includeData ∧
      ∀ (place : Nat) (cell : Cell), s[place]? = some cell → final[place]? = some cell

/-- Writing is closed and idempotent, and leaving out data takes the data props of the layers from what
is written and nothing from the map. -/
theorem writtenForms {κ α : Type} (kind : KeyKind κ) (value : NestedValue κ α) (m : CompiledMap)
    (placeholder : String) : WrittenForms kind value m placeholder where
  plain := NestedValue.isPlain_jsonable placeholder value
  again other := NestedValue.jsonable_jsonable placeholder other value
  props prop := by
    rw [NestedValue.jsonable, NestedValue.toJson_ofProp, NestedValue.ofProp_ofJson]
  without_data := toJson_without_data (.text placeholder) m
  unchanged includeData s addresses h := by
    obtain ⟨objects, final, hobjects, hholds, hstays⟩ := Store.objectsFor_eq includeData h
    refine ⟨objects, final, _, hobjects, hholds, ?_, hstays⟩
    cases includeData <;> rfl

end CompiledMap

end MapLayers
