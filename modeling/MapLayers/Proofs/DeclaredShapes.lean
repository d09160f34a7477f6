import MapLayers.Channels.Resolve
import MapLayers.Proofs.Values

/-!
# Declared shapes

What a document promises about the values that the visual channels of a layer read. Every value may be
absent or null; one that is there has the shape declared for its key. The shapes are tests, so that a
given layer can be checked against them.
-/

namespace MapLayers.Declared

/-- A test of values. -/
abbrev Shape := Json → Bool

def optional (shape : Shape) : Shape := fun value => value.isNull || shape value

def listOf (shape : Shape) : Shape
  | .list items => items.all shape
  | _ => false

/-- An object whose fields have their shapes as far as they are there. -/
def record (shapes : Entries String Shape) : Shape
  | .object fields => shapes.all fun entry => optional entry.2 (Json.fieldOf fields entry.1)
  | _ => false

def finite : Shape
  | .int _ => true
  | .float x => Binary64.isFinite x
  | _ => false

/-- A range of numbers, from one end to the other. -/
def numberRange : Shape
  | .list items => 2 ≤ items.length && items.all finite
  | _ => false

def scaleName : Shape
  | .text name => (ScaleKind.ofName? name).isSome
  | _ => false

def aggregationName : Shape
  | .text name => Statistics.Aggregation.all.any fun a => name = a.name
  | _ => false

def pair : Shape
  | .list [_, _] => true
  | _ => false

/-- The column that a channel or a label reads. -/
def column : Shape := fun value =>
  (Json.fieldOf value.fieldsOrNone "name").isText &&
    record [("type", Json.isText), ("colorColumn", Json.isText)] value

def colorRange : Shape := record [("colors", Json.isList), ("colorMap", listOf pair)]

def marker : Shape := record [("value", Json.hashable), ("markerUrl", Json.isText)]

def markerRange : Shape := record [("markerMap", listOf marker)]

def label : Shape :=
  record [("field", column), ("color", Json.isList), ("outlineColor", Json.isList)]

/-- The visual settings that channels read. -/
def visShapes : Entries String Shape :=
  [("opacity", finite), ("strokeOpacity", finite), ("radius", finite),
    ("radiusRange", numberRange), ("sizeRange", numberRange), ("heightRange", numberRange),
    ("colorRange", colorRange), ("strokeColorRange", colorRange),
    ("colorAggregation", aggregationName), ("strokeColorAggregation", Json.isText),
    ("sizeAggregation", Json.isText), ("heightAggregation", Json.isText),
    ("weightAggregation", Json.isText), ("customMarkersRange", markerRange)]

def visConfig : Shape := record visShapes

def configShapes : Entries String Shape :=
  [("visConfig", visConfig), ("columns", Json.isObject), ("textLabel", listOf label)]

def config : Shape := record configShapes

/-- The channels that columns drive. -/
def channelShapes : Entries String Shape :=
  [("colorField", column), ("colorScale", scaleName), ("strokeColorField", column),
    ("strokeColorScale", scaleName), ("radiusField", column), ("radiusScale", scaleName),
    ("sizeField", column), ("sizeScale", scaleName), ("heightField", column),
    ("heightScale", scaleName), ("weightField", column), ("rotationField", column),
    ("customMarkersField", column)]

def channels : Shape := record channelShapes

/-- A whole number that a floating-point one can stand for, or no whole number. -/
def fitsDouble : Shape
  | .int n => (Binary64.nearest? n).isSome
  | _ => true

/-- The value of a column: no list and no object, and no number out of range. -/
def columnValue : Shape := fun value => value.hashable && fitsDouble value

def row : Shape
  | .object fields => fields.all fun entry => columnValue entry.2
  | _ => false

/-- A feature holds its columns as properties, or has none. -/
def feature : Shape := record [("properties", row)]

def schema : Shape := listOf Json.isObject

/-- Statistics of tiles each of whose attributes has a shape. -/
def statisticsOf (each : Shape) : Shape :=
  record [("layers", listOf (record [("attributes", listOf each)]))]

def tileStatistics : Shape := record
  [("layers", listOf (record
    [("attributes", listOf (record [("categories", listOf Json.isObject)]))]))]

/-- A collection of features, or a description of tiles. -/
def collection : Shape :=
  record [("features", listOf feature), ("tilestats", tileStatistics), ("schema", schema)]

def data : Shape := fun value => listOf row value || collection value

end MapLayers.Declared

namespace MapLayers.Channels.Context

/-- Everything that the channels of the layer read has its declared shape. -/
structure WellShaped (c : Context) : Prop where
  config : Declared.config (.object c.layer.config) = true
  channels : Declared.channels (.object c.layer.channels) = true
  data : Declared.optional Declared.data c.dataset.data = true
  schema : Declared.optional Declared.schema c.dataset.schema = true

end MapLayers.Channels.Context

namespace MapLayers.Declared

variable {shape : Shape} {value : Json}

theorem optional_iff : optional shape value = true ↔ value = .null ∨ shape value = true := by
  cases value <;> simp [optional, Json.isNull]

theorem of_truthy (h : optional shape value = true) (htruthy : value.truthy = true) :
    shape value = true := by
  rcases optional_iff.mp h with rfl | hshape
  · simp [Json.truthy] at htruthy
  · exact hshape

theorem optional_orElse {other : Json} (h : optional shape value = true)
    (hother : optional shape other = true) : optional shape (value.orElse other) = true := by
  unfold Json.orElse
  split <;> assumption

theorem listOf_inv (h : listOf shape value = true) :
    ∃ items, value = .list items ∧ ∀ item ∈ items, shape item = true := by
  cases value with
  | list items => exact ⟨items, rfl, by simpa [listOf] using h⟩
  | _ => simp [listOf] at h

theorem elements_of_list (h : optional (listOf shape) value = true)
    (htruthy : value.truthy = true) :
    ∃ items, value.elements = .ok items ∧ ∀ item ∈ items, shape item = true := by
  obtain ⟨items, rfl, hitems⟩ := listOf_inv (of_truthy h htruthy)
  exact ⟨items, rfl, hitems⟩

theorem first_of_list (h : optional (listOf shape) value = true) (htruthy : value.truthy = true) :
    ∃ first, value.item 0 = .ok first ∧ shape first = true := by
  obtain ⟨items, rfl, hitems⟩ := listOf_inv (of_truthy h htruthy)
  cases items with
  | nil => simp [Json.truthy] at htruthy
  | cons first rest => exact ⟨first, rfl, hitems first (by simp)⟩

theorem record_inv {shapes : Entries String Shape} (h : record shapes value = true) :
    ∃ fields, value = .object fields ∧
      ∀ (key : String) {shape : Shape}, Entries.get? shapes key = some shape →
        optional shape (Json.fieldOf fields key) = true := by
  cases value with
  | object fields =>
    refine ⟨fields, rfl, fun key shape hkey => ?_⟩
    exact List.all_eq_true.mp h _ (Entries.mem_of_get?_eq_some hkey)
  | _ => simp [record] at h

/-- A field of an object that may itself be missing. -/
theorem optional_field {shapes : Entries String Shape} (key : String)
    (h : optional (record shapes) value = true) (hkey : Entries.get? shapes key = some shape) :
    optional shape (Json.fieldOf value.fieldsOrNone key) = true := by
  rcases optional_iff.mp h with rfl | h
  · rfl
  · obtain ⟨fields, rfl, hfields⟩ := record_inv h
    exact hfields key hkey

theorem isObject_of_record {shapes : Entries String Shape} (h : record shapes value = true) :
    value.isObject = true := by
  obtain ⟨fields, rfl, -⟩ := record_inv h
  rfl

/-- Where an object may be missing, an empty one stands in for it. -/
theorem orElse_record {shapes : Entries String Shape} (h : optional (record shapes) value = true) :
    value.orElse (.object []) = .object value.fieldsOrNone :=
  Json.orElse_object fun htruthy => isObject_of_record (of_truthy h htruthy)

theorem scaleName_inv (h : scaleName value = true) :
    ∃ kind : ScaleKind, value = .text kind.name ∧ ScaleKind.ofJson value = .ok kind := by
  cases value with
  | text name =>
    obtain ⟨kind, hkind⟩ := Option.isSome_iff_exists.mp h
    have hname : kind.name = name := by
      have := List.find?_some hkind
      simpa using this
    exact ⟨kind, by rw [hname], by simp [ScaleKind.ofJson, hkind]⟩
  | _ => simp [scaleName] at h

theorem aggregationName_inv (h : aggregationName value = true) :
    ∃ a ∈ Statistics.Aggregation.all, value = .text a.name := by
  cases value with
  | text name => simpa [aggregationName] using h
  | _ => simp [aggregationName] at h

end MapLayers.Declared
