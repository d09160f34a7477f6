import MapLayers.Proofs.KeyedDocuments
import MapLayers.Proofs.Layerwise

/-!
# Written values

Writing a value replaces what a document cannot hold: tuples become lists, descriptors and mappings objects,
and callables a placeholder. A value is plain if nothing of it has to be replaced. What has been written is
plain, so that writing it once more changes nothing. A map that is written without data lacks the data props
of its layers and nothing else.
-/

namespace MapLayers

/-- Keys of mappings. Each is shown as a text, and each text is a key that is shown as itself. -/
structure KeyKind (κ : Type) where
  text : κ → String
  field : String → κ
  text_field : ∀ name, text (field name) = name

/-- The keys of props. -/
def PropKey.kind : KeyKind PropKey := ⟨PropKey.text, .field, fun _ => rfl⟩

/-- Values with any keys and any callables. -/
inductive NestedValue (κ α : Type) where
  | null
  | bool (value : Bool)
  | int (value : Int)
  | float (value : Float)
  | text (value : String)
  | list (items : List (NestedValue κ α))
  | tuple (items : List (NestedValue κ α))
  | mapping (entries : List (κ × NestedValue κ α))
  | descriptor (type : NestedValue κ α) (props : NestedValue κ α) (filters : NestedValue κ α)
  | callable (value : α)

namespace NestedValue

variable {κ α : Type} (kind : KeyKind κ)

def isNull : NestedValue κ α → Bool
  | null => true
  | _ => false

mutual

/-- The document that a value is written as. -/
def toJson (placeholder : Json) : NestedValue κ α → Json
  | null => .null
  | bool b => .bool b
  | int n => .int n
  | float x => .float x
  | text s => .text s
  | list items => .list (toItems placeholder items)
  | tuple items => .list (toItems placeholder items)
  | mapping entries => .object (Entries.ofList (toFields placeholder entries))
  | descriptor type props filters =>
    let written := [("type", toJson placeholder type), ("props", toJson placeholder props)]
    .object (if filters.isNull then written
      else written ++ [("filters", toJson placeholder filters)])
  | callable _ => placeholder

def toItems (placeholder : Json) : List (NestedValue κ α) → List Json
  | [] => []
  | item :: rest => toJson placeholder item :: toItems placeholder rest

def toFields (placeholder : Json) : List (κ × NestedValue κ α) → List (String × Json)
  | [] => []
  | (key, value) :: rest =>
    (kind.text key, toJson placeholder value) :: toFields placeholder rest

end

mutual

/-- A document as a value. -/
def ofJson : Json → NestedValue κ α
  | .null => null
  | .bool b => bool b
  | .int n => int n
  | .float x => float x
  | .text s => text s
  | .list items => list (ofItems items)
  | .object fields => mapping (ofFields fields)

def ofItems : List Json → List (NestedValue κ α)
  | [] => []
  | item :: rest => ofJson item :: ofItems rest

def ofFields : List (String × Json) → List (κ × NestedValue κ α)
  | [] => []
  | (key, value) :: rest => (kind.field key, ofJson value) :: ofFields rest

end

/-- What writing makes of a value. -/
def jsonable (placeholder : String) (value : NestedValue κ α) : NestedValue κ α :=
  ofJson kind (toJson kind (.text placeholder) value)

/-- Nulls, booleans, numbers, texts, lists, and mappings from texts in which no text stands twice. -/
inductive IsPlain : NestedValue κ α → Prop
  | null : IsPlain null
  | bool (value : Bool) : IsPlain (bool value)
  | int (value : Int) : IsPlain (int value)
  | float (value : Float) : IsPlain (float value)
  | text (value : String) : IsPlain (text value)
  | list {items : List (NestedValue κ α)} : (∀ item ∈ items, IsPlain item) → IsPlain (list items)
  | mapping {fields : Entries String (NestedValue κ α)} : fields.Distinct →
    (∀ field ∈ fields, IsPlain field.2) →
    IsPlain (mapping (fields.map fun field => (kind.field field.1, field.2)))

variable {kind}

theorem toItems_eq_map (placeholder : Json) (items : List (NestedValue κ α)) :
    toItems kind placeholder items = items.map (toJson kind placeholder) := by
  induction items with
  | nil => rfl
  | cons item rest ih => rw [toItems, ih, List.map_cons]

theorem toFields_eq_map (placeholder : Json) (entries : List (κ × NestedValue κ α)) :
    toFields kind placeholder entries =
      entries.map fun entry => (kind.text entry.1, toJson kind placeholder entry.2) := by
  induction entries with
  | nil => rfl
  | cons entry rest ih => rw [toFields, ih, List.map_cons]

theorem ofItems_eq_map (items : List Json) :
    (ofItems kind items : List (NestedValue κ α)) = items.map (ofJson kind) := by
  induction items with
  | nil => rfl
  | cons item rest ih => rw [ofItems, ih, List.map_cons]

theorem ofFields_eq_map (fields : List (String × Json)) :
    (ofFields kind fields : List (κ × NestedValue κ α)) =
      fields.map fun field => (kind.field field.1, ofJson kind field.2) := by
  induction fields with
  | nil => rfl
  | cons field rest ih => rw [ofFields, ih, List.map_cons]

theorem isPlain_of_keyed {document : Json} (h : document.Keyed) :
    IsPlain kind (ofJson kind document : NestedValue κ α) := by
  induction h with
  | null => exact .null
  | bool b => exact .bool b
  | int n => exact .int n
  | float x => exact .float x
  | text s => exact .text s
  | list _ ih =>
    rw [ofJson, ofItems_eq_map]
    exact .list (List.forall_mem_map.mpr ih)
  | @object fields hdistinct _ ih =>
    have hmap : (ofJson kind (.object fields) : NestedValue κ α) =
        mapping ((fields.map fun field => (field.1, ofJson kind field.2)).map fun field =>
          (kind.field field.1, field.2)) := by
      rw [ofJson, ofFields_eq_map, List.map_map]
      rfl
    rw [hmap]
    exact .mapping (hdistinct.map _) (List.forall_mem_map.mpr ih)

mutual

/-- What a value is written as has no key twice, as long as the placeholder has none. -/
theorem keyed_toJson {placeholder : Json} (hplaceholder : placeholder.Keyed) :
    (value : NestedValue κ α) → (toJson kind placeholder value).Keyed
  | null => .null
  | bool b => .bool b
  | int n => .int n
  | float x => .float x
  | text s => .text s
  | list items => by
    rw [toJson, toItems_eq_map]
    exact .list (List.forall_mem_map.mpr (keyed_items hplaceholder items))
  | tuple items => by
    rw [toJson, toItems_eq_map]
    exact .list (List.forall_mem_map.mpr (keyed_items hplaceholder items))
  | mapping entries => by
    rw [toJson, toFields_eq_map]
    -- Keys that are shown alike are set one over the other, so what is left is among the entries.
    refine .object (Entries.Distinct.nil.overlay _) (Entries.forall_mem_ofList (motive := Json.Keyed) ?_)
    exact List.forall_mem_map.mpr (keyed_entries hplaceholder entries)
  | descriptor type props filters => by
    have htype := keyed_toJson hplaceholder type
    have hprops := keyed_toJson hplaceholder props
    have hfilters := keyed_toJson hplaceholder filters
    rw [toJson]
    cases filters.isNull with
    | true => exact .object (by simp [Entries.Distinct, Entries.keys]) (by simpa using ⟨htype, hprops⟩)
    | false =>
      exact .object (by simp [Entries.Distinct, Entries.keys]) (by simpa using ⟨htype, hprops, hfilters⟩)
  | callable _ => hplaceholder

theorem keyed_items {placeholder : Json} (hplaceholder : placeholder.Keyed) :
    (items : List (NestedValue κ α)) → ∀ item ∈ items, (toJson kind placeholder item).Keyed
  | [] => by simp
  | item :: rest =>
    List.forall_mem_cons.mpr ⟨keyed_toJson hplaceholder item, keyed_items hplaceholder rest⟩

theorem keyed_entries {placeholder : Json} (hplaceholder : placeholder.Keyed) :
    (entries : List (κ × NestedValue κ α)) → ∀ entry ∈ entries, (toJson kind placeholder entry.2).Keyed
  | [] => by simp
  | (_, value) :: rest =>
    List.forall_mem_cons.mpr ⟨keyed_toJson hplaceholder value, keyed_entries hplaceholder rest⟩

end

theorem IsPlain.ofJson_toJson {value : NestedValue κ α} (h : IsPlain kind value) (placeholder : Json) :
    ofJson kind (toJson kind placeholder value) = value := by
  induction h with
  | null | bool | int | float | text => rfl
  | list _ ih =>
    rw [toJson, toItems_eq_map, ofJson, ofItems_eq_map, List.map_map, list.injEq]
    exact (List.map_congr_left ih).trans (List.map_id _)
  | @mapping fields hdistinct _ ih =>
    have hwritten : toFields kind placeholder (fields.map fun field => (kind.field field.1, field.2)) =
        fields.map fun field => (field.1, toJson kind placeholder field.2) := by
      simp only [toFields_eq_map, List.map_map, Function.comp_def, kind.text_field]
    rw [toJson, hwritten, Entries.ofList_eq_self (hdistinct.map _), ofJson, ofFields_eq_map,
      List.map_map, mapping.injEq]
    refine List.map_congr_left fun field hfield => ?_
    simp only [Function.comp_apply, ih field hfield]

theorem isPlain_jsonable (placeholder : String) (value : NestedValue κ α) :
    IsPlain kind (value.jsonable kind placeholder) :=
  isPlain_of_keyed (keyed_toJson (.text placeholder) value)

theorem jsonable_jsonable (placeholder other : String) (value : NestedValue κ α) :
    (value.jsonable kind placeholder).jsonable kind other = value.jsonable kind placeholder :=
  (isPlain_jsonable placeholder value).ofJson_toJson (.text other)

mutual

/-- A prop as a value. -/
def ofProp : PropValue → NestedValue PropKey Accessor
  | .null => null
  | .bool b => bool b
  | .int n => int n
  | .float x => float x
  | .text s => text s
  | .list items => list (ofProps items)
  | .tuple items => tuple (ofProps items)
  | .record fields => mapping (ofRecord fields)
  | .descriptor type props filters => descriptor (ofProp type) (ofProp props) (ofProp filters)
  | .accessor a => callable a

def ofProps : List PropValue → List (NestedValue PropKey Accessor)
  | [] => []
  | item :: rest => ofProp item :: ofProps rest

def ofRecord : List (PropKey × PropValue) → List (PropKey × NestedValue PropKey Accessor)
  | [] => []
  | (key, value) :: rest => (key, ofProp value) :: ofRecord rest

end

theorem isNull_ofProp (value : PropValue) : (ofProp value).isNull = value.isNull := by
  cases value <;> rfl

mutual

theorem toJson_ofProp (placeholder : Json) : (value : PropValue) →
    toJson PropKey.kind placeholder (ofProp value) = value.toJson placeholder
  | .null | .bool _ | .int _ | .float _ | .text _ | .accessor _ => rfl
  | .list items => by rw [ofProp, toJson, PropValue.toJson, toItems_ofProps placeholder items]
  | .tuple items => by rw [ofProp, toJson, PropValue.toJson, toItems_ofProps placeholder items]
  | .record fields => by rw [ofProp, toJson, PropValue.toJson, toFields_ofRecord placeholder fields]
  | .descriptor type props filters => by
    rw [ofProp, toJson, PropValue.toJson, toJson_ofProp placeholder type,
      toJson_ofProp placeholder props, toJson_ofProp placeholder filters, isNull_ofProp]

theorem toItems_ofProps (placeholder : Json) : (items : List PropValue) →
    toItems PropKey.kind placeholder (ofProps items) = PropValue.toItems placeholder items
  | [] => rfl
  | item :: rest => by
    rw [ofProps, toItems, PropValue.toItems, toJson_ofProp placeholder item,
      toItems_ofProps placeholder rest]

theorem toFields_ofRecord (placeholder : Json) : (fields : List (PropKey × PropValue)) →
    toFields PropKey.kind placeholder (ofRecord fields) = PropValue.toFields placeholder fields
  | [] => rfl
  | (key, value) :: rest => by
    rw [ofRecord, toFields, PropValue.toFields, toJson_ofProp placeholder value,
      toFields_ofRecord placeholder rest]
    rfl

end

mutual

theorem ofProp_ofJson : (document : Json) →
    ofProp (.ofJson document) = ofJson PropKey.kind document
  | .null | .bool _ | .int _ | .float _ | .text _ => rfl
  | .list items => by rw [PropValue.ofJson, ofProp, ofJson, ofProps_ofItems items]
  | .object fields => by rw [PropValue.ofJson, ofProp, ofJson, ofRecord_ofFields fields]

theorem ofProps_ofItems : (items : List Json) →
    ofProps (PropValue.ofItems items) = ofItems PropKey.kind items
  | [] => rfl
  | item :: rest => by
    rw [PropValue.ofItems, ofProps, ofItems, ofProp_ofJson item, ofProps_ofItems rest]

theorem ofRecord_ofFields : (fields : List (String × Json)) →
    ofRecord (PropValue.ofFields fields) = ofFields PropKey.kind fields
  | [] => rfl
  | (key, value) :: rest => by
    rw [PropValue.ofFields, ofRecord, ofFields, ofProp_ofJson value, ofRecord_ofFields rest]
    rfl

end

end NestedValue

namespace CompiledMap

/-- An object without one of its fields. -/
def withoutField (name : String) : Json → Json
  | .object fields => .object (Entries.erase fields name)
  | other => other

/-- An object with one of its fields changed. -/
def changeField (name : String) (change : Json → Json) : Json → Json
  | .object fields =>
    .object (fields.map fun field => (field.1, if field.1 = name then change field.2 else field.2))
  | other => other

def changeItems (change : Json → Json) : Json → Json
  | .list items => .list (items.map change)
  | other => other

/-- A written map without the data among the props of its layers. -/
def withoutLayerData : Json → Json :=
  changeField "layers" (changeItems (changeField "props" (withoutField "data")))

theorem toFields_eq_map (placeholder : Json) (fields : List (PropKey × PropValue)) :
    PropValue.toFields placeholder fields =
      fields.map fun field => (field.1.text, field.2.toJson placeholder) := by
  induction fields with
  | nil => rfl
  | cons field rest ih => rw [PropValue.toFields, ih, List.map_cons]

theorem keyed_toJson (placeholder : String) (includeData : Bool) (m : CompiledMap) :
    (m.toJson (.text placeholder) includeData).Keyed := by
  unfold toJson
  rw [← NestedValue.toJson_ofProp]
  exact NestedValue.keyed_toJson (.text placeholder) _

/-- Props that lack one are written as what is written lacks it. -/
theorem toJson_erase (placeholder : Json) (props : Props) (name : String) :
    (PropValue.ofProps (props.erase name)).toJson placeholder =
      withoutField name ((PropValue.ofProps props).toJson placeholder) := by
  have hwritten (entries : Props) : (PropValue.ofProps entries).toJson placeholder =
      .object (Entries.ofList (entries.map fun entry => (entry.1, entry.2.toJson placeholder))) := by
    rw [PropValue.ofProps, PropValue.toJson, toFields_eq_map, List.map_map]
    rfl
  have herase : ((props.erase name).map fun entry => (entry.1, entry.2.toJson placeholder)) =
      Entries.erase (props.map fun entry => (entry.1, entry.2.toJson placeholder)) name := by
    rw [Entries.erase, Entries.erase, List.filter_map]
    rfl
  rw [hwritten, hwritten, herase, withoutField, Entries.ofList, Entries.ofList, Entries.erase_overlay]
  rfl

theorem toJson_withoutData (placeholder : Json) (layer : LayerDescriptor) :
    (withoutData layer).toValue.toJson placeholder =
      changeField "props" (withoutField "data") (layer.toValue.toJson placeholder) := by
  simp only [LayerDescriptor.toValue, withoutData, PropValue.toJson, toJson_erase]
  cases (PropValue.ofJson layer.filters).isNull <;> simp [changeField]

/-- A map is written as its settings, which do not depend on the data, followed by its layers. -/
theorem toJson_eq (placeholder : Json) (m : CompiledMap) :
    ∃ settings : Json.Fields, (∀ field ∈ settings, field.1 ≠ "layers") ∧
      ∀ includeData, m.toJson placeholder includeData = .object (settings ++ [("layers", .list
        ((if includeData then m.layers else m.layers.map withoutData).map fun layer =>
          layer.toValue.toJson placeholder))]) := by
  let write (setting : Json) : Json := (PropValue.ofJson setting).toJson placeholder
  refine ⟨[("id", write m.id), ("title", write m.title), ("description", write m.description),
    ("createdAt", write m.createdAt), ("updatedAt", write m.updatedAt),
    ("initialViewState", write m.initialViewState), ("mapStyle", write m.mapStyle),
    ("popupSettings", write m.popupSettings), ("legendSettings", write m.legendSettings),
    ("token", write m.token)], by simp, fun includeData => ?_⟩
  rw [toJson, toValue, PropValue.toJson, Entries.ofList_eq_self]
  · simp only [toFields_eq_map, PropValue.ofFields, List.cons_append, List.nil_append, List.map_cons,
      List.map_nil, PropKey.text, PropValue.toJson, toItems_eq_map, List.map_map, write]
    rfl
  · simp [toFields_eq_map, PropValue.ofFields, PropKey.text, Entries.Distinct, Entries.keys]

/-- A map that is written without data lacks the data props of its layers and nothing else. -/
theorem toJson_without_data (placeholder : Json) (m : CompiledMap) :
    m.toJson placeholder false = withoutLayerData (m.toJson placeholder true) := by
  obtain ⟨settings, hsettings, hwritten⟩ := toJson_eq placeholder m
  have hkept : (settings.map fun field => (field.1, if field.1 = "layers" then
      changeItems (changeField "props" (withoutField "data")) field.2 else field.2)) = settings := by
    refine (List.map_congr_left fun field hfield => ?_).trans (List.map_id settings)
    rw [if_neg (hsettings field hfield), id_eq]
  rw [hwritten, hwritten, withoutLayerData, changeField, List.map_append, hkept]
  simp [changeItems, toJson_withoutData]

end CompiledMap

end MapLayers
