import MapLayers.Proofs.ReadableDomains

/-!
# What accessors demand

The accessor of a channel of its declared shape can be made, with two exceptions. The opacity of a color
has to become a byte, which an opacity does not whose multiple is out of range. And where a scale takes
its domain from the data, the data has to be readable for it.
-/

namespace MapLayers

open Result (Succeeds succeeds_bind)
open Declared (listOf optional record)

namespace Color

/-- No opacity, or one whose multiple is a finite number before it is brought into the range of a
byte. -/
def fits (opacity : Json) : Bool :=
  opacity.isNull || match opacity.toFloat with
    | .ok x => Binary64.isFinite (255 * (if 1 < x then x / 100 else x) + 0.5)
    | .error _ => false

theorem toInt_float_succeeds_iff (round : Rat → Int) {x : Float} :
    Succeeds ((Number.float x).toInt round) ↔ Binary64.isFinite x = true := by
  cases h : Binary64.isFinite x <;> simp [Number.toInt, Binary64.value?, h]

theorem alphaOfOpacity_succeeds_iff {opacity : Json} :
    Succeeds (alphaOfOpacity opacity) ↔ fits opacity = true := by
  cases opacity with
  | null => exact iff_of_true ⟨255, rfl⟩ rfl
  | _ =>
    simp only [alphaOfOpacity, fits, Json.isNull, Bool.false_or]
    split
    · next x hx =>
      rw [hx, Result.ok_bind, ← toInt_float_succeeds_iff Rat.floor]
      exact Result.succeeds_bind_left fun n => Result.succeeds_pure _
    · next fault hfault => simp [hfault, bind, Except.bind]

end Color

namespace Declared

variable {value : Json}

/-- What a declared column holds. -/
structure Column (field : Json) (name : String) : Prop where
  isObject : field.isObject = true
  named : Json.fieldOf field.fieldsOrNone "name" = .text name
  type : optional Json.isText (Json.fieldOf field.fieldsOrNone "type") = true
  colorColumn : optional Json.isText (Json.fieldOf field.fieldsOrNone "colorColumn") = true

theorem column_inv (h : column value = true) : ∃ name, Column value name := by
  obtain ⟨hname, hrecord⟩ := Bool.and_eq_true_iff.mp h
  obtain ⟨name, hname⟩ := Json.eq_text_of_isText hname
  obtain ⟨fields, rfl, hfields⟩ := record_inv hrecord
  exact ⟨name, rfl, hname, hfields "type" rfl, hfields "colorColumn" rfl⟩

variable {name : String}

theorem Column.lookup (h : Column value name) (key : String) :
    value.lookup key = .ok (Json.fieldOf value.fieldsOrNone key) :=
  Json.lookup_eq_ok_iff.mpr ⟨h.isObject, rfl⟩

theorem Column.field_name (h : Column value name) : value.field "name" = .ok (.text name) := by
  rw [Json.field_eq_ok (by simp [h.named]), h.named]

end Declared

/-- The name under which the colors of a channel find their domain. -/
def Accessor.colorColumn (field : Json) : Json :=
  (Json.fieldOf field.fieldsOrNone "colorColumn").orElse (Json.fieldOf field.fieldsOrNone "name")

theorem Declared.Column.colorColumn_eq {field : Json} {name : String}
    (h : Declared.Column field name) : ∃ column, Accessor.colorColumn field = .text column := by
  unfold Accessor.colorColumn
  rw [h.named, Json.orElse]
  split
  · next htruthy => exact Json.eq_text_of_isText (Declared.of_truthy h.colorColumn htruthy)
  · exact ⟨name, rfl⟩

theorem Reader.new_succeeds {channel : Channel} {name aggregation : Json}
    (h : optional Json.isText aggregation = true) : Succeeds (Reader.new channel name aggregation) := by
  refine Result.Succeeds.bind ?_ fun keys => Result.succeeds_pure _
  rcases Declared.optional_iff.mp h with rfl | htext
  · exact ⟨_, rfl⟩
  · obtain ⟨s, rfl⟩ := Json.eq_text_of_isText htext
    unfold keysFor
    split <;> exact ⟨_, rfl⟩

namespace ScaleKind

theorem shape_of_name (kind : ScaleKind) : Domain.Shape.ofJson (.text kind.name) = .ofKind kind := by
  cases kind <;> rfl

theorem isTheText_name (kind : ScaleKind) :
    (Json.text kind.name).isTheText "identity" = true ↔ kind = .identity := by
  cases kind <;> decide

end ScaleKind

/-- Opacities that become bytes, and domains of columns that are taken from the data. -/
structure Demands where
  opacities : List Json
  domains : List (Json × Domain.Shape)

namespace Demands

def none : Demands := ⟨[], []⟩

def Met (demands : Demands) (data : Json) : Prop :=
  (∀ opacity ∈ demands.opacities, Color.fits opacity = true) ∧
    ∀ entry ∈ demands.domains, Domain.Readable data entry.1 entry.2

@[simp] theorem none_met (data : Json) : none.Met data := by simp [Met, none]

theorem Met.ite {present : Bool} {demands : Demands} {data : Json} (h : demands.Met data) :
    (if present then demands else .none).Met data := by
  cases present
  · exact none_met data
  · exact h

end Demands

namespace Accessor

variable {channel : Channel} {data : Json} {name : String}

/-- The color range lists the colors of single values. -/
def isMapped (range : Json) : Bool :=
  match Json.fieldOf range.fieldsOrNone "colorMap" with
  | .list (_ :: _) => true
  | _ => false

/-- The domain that a scale of colors takes from the data, if it takes one. -/
def colorDomain (column kind range : Json) : List (Json × Domain.Shape) :=
  if kind.isTheText "identity" || isMapped range then [] else [(column, .ofJson kind)]

/-- The domain that a scale of sizes takes from the data, if it takes one. -/
def sizeDomain (column kind aggregation : Json) : List (Json × Domain.Shape) :=
  if kind.truthy && !aggregation.isTheText "count" then [(column, .ofJson kind)] else []

theorem items_of_pair {entry : Json} (h : Declared.pair entry = true) :
    Succeeds (entry.item 0) ∧ Succeeds (entry.item 1) := by
  unfold Declared.pair at h
  split at h
  · exact ⟨⟨_, rfl⟩, ⟨_, rfl⟩⟩
  · simp at h

theorem elements_succeeds {value : Json} (h : value.isList = true) : Succeeds value.elements := by
  cases value <;> simp_all [Json.isList, Json.elements]

theorem colorScale_succeeds_iff {range kind : Json} (hdata : optional Declared.data data = true)
    (hrange : optional Declared.colorRange range = true) (hkind : Declared.scaleName kind = true) :
    Succeeds (colorScale (.text name) kind range data) ↔
      ∀ entry ∈ colorDomain (.text name) kind range, Domain.Readable data entry.1 entry.2 := by
  have hmap : optional (listOf Declared.pair) (Json.fieldOf range.fieldsOrNone "colorMap") = true :=
    Declared.optional_field "colorMap" hrange rfl
  have hcolors : optional Json.isList (Json.fieldOf range.fieldsOrNone "colors") = true :=
    Declared.optional_field "colors" hrange rfl
  obtain ⟨scaleKind, rfl, hkind⟩ := Declared.scaleName_inv hkind
  unfold colorScale colorDomain isMapped
  rw [hkind, Result.ok_bind, Declared.orElse_record hrange, ScaleKind.shape_of_name]
  by_cases hidentity : scaleKind = .identity
  · simp [hidentity, ScaleKind.name, Json.isTheText]
  have hother : (Json.text scaleKind.name).isTheText "identity" = false :=
    Bool.eq_false_iff.mpr fun h => hidentity ((ScaleKind.isTheText_name scaleKind).mp h)
  simp only [hidentity, hother, if_false, Bool.false_or, Json.lookup, Result.ok_bind]
  generalize Json.fieldOf range.fieldsOrNone "colorMap" = colorMap at hmap ⊢
  split
  · -- Domain and colors are listed, and the data is not looked at.
    obtain ⟨items, hitems, hpairs⟩ := Declared.listOf_inv (Declared.of_truthy hmap rfl)
    refine iff_of_true ?_ (by simp)
    rw [Json.list.inj hitems]
    refine Result.Succeeds.bind ?_ fun domain => Result.Succeeds.bind ?_ fun colors => ⟨_, rfl⟩
    · exact Result.succeeds_mapM.mpr fun entry hentry => (items_of_pair (hpairs entry hentry)).1
    · exact Result.succeeds_mapM.mpr fun entry hentry => (items_of_pair (hpairs entry hentry)).2
  · rw [Result.succeeds_bind_left fun domain => ?_]
    · simp [Domain.ofData_succeeds_iff hdata]
    · split
      · next htruthy =>
        refine Result.Succeeds.bind (elements_succeeds (Declared.of_truthy hcolors htruthy)) ?_
        exact fun colors => ⟨_, rfl⟩
      · exact ⟨_, rfl⟩

theorem rangeEntries_succeeds {range : Json} (h : optional Declared.numberRange range = true) :
    Succeeds (Scale.rangeEntries range) := by
  cases range <;>
    simp_all [Declared.optional, Declared.numberRange, Json.isNull, Scale.rangeEntries, Json.elements]

theorem sizeScale_succeeds_iff {spec : SizeSpec} (hdata : optional Declared.data data = true)
    (hscale : optional Declared.scaleName spec.scale = true)
    (hrange : optional Declared.numberRange spec.range = true) :
    Succeeds (sizeScale (.text name) spec data) ↔
      ∀ entry ∈ sizeDomain (.text name) spec.scale spec.aggregation,
        Domain.Readable data entry.1 entry.2 := by
  have hentries := rangeEntries_succeeds hrange
  unfold sizeScale sizeDomain
  cases htruthy : spec.scale.truthy with
  | false => simp
  | true =>
    obtain ⟨kind, hname, hkind⟩ := Declared.scaleName_inv (Declared.of_truthy hscale htruthy)
    rw [hname, ScaleKind.shape_of_name, ← hname, hkind]
    simp only [Result.ok_bind, if_true, Bool.true_and]
    cases spec.aggregation.isTheText "count" with
    | true => simpa using hentries
    | false =>
      have hset (domain : List Json) :
          Succeeds (((Scale.new kind).withDomain domain).withRange <$> Scale.rangeEntries spec.range) :=
        Result.succeeds_functor_map.mpr hentries
      simpa [← Domain.ofData_succeeds_iff hdata] using Result.succeeds_bind_left hset

def ColorSpec.demands (spec : ColorSpec) : Demands where
  opacities := [spec.opacity]
  domains := colorDomain (colorColumn spec.field) (spec.scale.orElse defaultColorScale) spec.colorRange

def SizeSpec.demands (spec : SizeSpec) : Demands where
  opacities := []
  domains := sizeDomain (Json.fieldOf spec.field.fieldsOrNone "name") spec.scale spec.aggregation

theorem forColor_succeeds_iff {spec : ColorSpec} (hdata : optional Declared.data data = true)
    (hfield : Declared.column spec.field = true)
    (hscale : optional Declared.scaleName spec.scale = true)
    (haggregation : optional Json.isText spec.aggregation = true)
    (hrange : optional Declared.colorRange spec.colorRange = true) :
    Succeeds (forColor channel spec data) ↔ spec.demands.Met data := by
  obtain ⟨name, hcolumn⟩ := Declared.column_inv hfield
  obtain ⟨other, hother⟩ := hcolumn.colorColumn_eq
  have hkind : Declared.scaleName (spec.scale.orElse defaultColorScale) = true := by
    unfold Json.orElse
    split
    · next htruthy => exact Declared.of_truthy hscale htruthy
    · rfl
  have hrest (scale : Scale) :
      Succeeds (do
        let alpha ← Color.alphaOfOpacity spec.opacity
        let reader ← Reader.new channel (.text name) spec.aggregation
        return color reader scale alpha (Row.isFeatureData data)) ↔
        Color.fits spec.opacity = true := by
    rw [Result.succeeds_bind_left fun alpha => ?_, Color.alphaOfOpacity_succeeds_iff]
    exact Result.Succeeds.bind (Reader.new_succeeds haggregation) fun reader => ⟨_, rfl⟩
  have hname :
      (Json.fieldOf spec.field.fieldsOrNone "colorColumn").orElse (.text name) = .text other := by
    rw [← hcolumn.named]
    exact hother
  simp only [forColor, hcolumn.field_name, hcolumn.lookup, Result.ok_bind, hname]
  rw [Result.succeeds_bind_iff hrest, colorScale_succeeds_iff hdata hrange hkind, ← hother]
  simp [Demands.Met, ColorSpec.demands, and_comm]

theorem forSize_succeeds_iff {spec : SizeSpec} (hdata : optional Declared.data data = true)
    (hfield : Declared.column spec.field = true)
    (hscale : optional Declared.scaleName spec.scale = true)
    (haggregation : optional Json.isText spec.aggregation = true)
    (hrange : optional Declared.numberRange spec.range = true) :
    Succeeds (forSize channel spec data) ↔ spec.demands.Met data := by
  obtain ⟨name, hcolumn⟩ := Declared.column_inv hfield
  have hreader (scale : Scale) :
      Succeeds (do
        let reader ← Reader.new channel (.text name) spec.aggregation
        return size reader scale (Row.isFeatureData data)) :=
    Result.Succeeds.bind (Reader.new_succeeds haggregation) fun reader => ⟨_, rfl⟩
  simp only [forSize, hcolumn.field_name, Result.ok_bind]
  rw [Result.succeeds_bind_left hreader, sizeScale_succeeds_iff hdata hscale hrange]
  simp [Demands.Met, SizeSpec.demands, hcolumn.named]

theorem forLabel_succeeds {field : Json} (h : Declared.column field = true) :
    Succeeds (forLabel field data) := by
  obtain ⟨name, hcolumn⟩ := Declared.column_inv h
  have hformat : Succeeds (TextFormat.ofJson (Json.fieldOf field.fieldsOrNone "type")) := by
    rcases Declared.optional_iff.mp hcolumn.type with hnull | htext
    · rw [hnull]
      exact ⟨_, rfl⟩
    · obtain ⟨type, htype⟩ := Json.eq_text_of_isText htext
      rw [htype]
      exact ⟨_, rfl⟩
  simp only [forLabel, hcolumn.field_name, hcolumn.lookup, Result.ok_bind]
  exact hformat.bind fun format => ⟨_, rfl⟩

theorem forBin_succeeds {field aggregation : Json} (hfield : Declared.column field = true)
    (haggregation : optional Declared.aggregationName aggregation = true) :
    Succeeds (forBin field aggregation) := by
  obtain ⟨name, hcolumn⟩ := Declared.column_inv hfield
  simp only [forBin, hcolumn.field_name, Result.ok_bind]
  refine Result.Succeeds.bind ?_ fun found => ⟨_, rfl⟩
  unfold Statistics.Aggregation.ofJson
  split
  · exact ⟨_, rfl⟩
  · next htruthy =>
    have hname := Declared.of_truthy haggregation (by simpa using htruthy)
    obtain ⟨a, ha, rfl⟩ := Declared.aggregationName_inv hname
    cases hfound : Statistics.Aggregation.all.find? fun b => (Json.text a.name).isTheText b.name with
    | some b => exact ⟨_, rfl⟩
    | none => simpa [Json.isTheText] using List.find?_eq_none.mp hfound a ha

theorem addMarkers_succeeds {style : Icon.Style} {entries : List Json}
    (h : ∀ entry ∈ entries, Declared.marker entry = true) (markers : Icon.Markers) :
    Succeeds (Icon.addMarkers style markers entries) := by
  induction entries generalizing markers with
  | nil => exact ⟨_, rfl⟩
  | cons entry rest ih =>
    obtain ⟨hentry, hrest⟩ := List.forall_mem_cons.mp h
    obtain ⟨fields, rfl, hfields⟩ := Declared.record_inv hentry
    have hvalue : (Json.fieldOf fields "value").hashable = true := by
      rcases Declared.optional_iff.mp (hfields "value" rfl) with hnull | hscalar
      · rw [hnull]
        rfl
      · exact hscalar
    simp only [Icon.addMarkers, Json.lookup, Result.ok_bind, hvalue, if_true]
    split
    · exact ih hrest _
    · exact ih hrest _

theorem markersOf_succeeds (style : Icon.Style) {entries : Json}
    (h : optional (listOf Declared.marker) entries = true) :
    Succeeds (Icon.markersOf style entries) := by
  unfold Icon.markersOf
  split
  · next htruthy =>
    obtain ⟨items, hitems, hmarkers⟩ := Declared.elements_of_list h htruthy
    rw [hitems, Result.ok_bind]
    exact addMarkers_succeeds hmarkers []
  · exact ⟨_, rfl⟩

theorem otherImage_succeeds {range fallback : Json}
    (h : optional Declared.markerRange range = true) : Succeeds (otherImage fallback range) := by
  unfold otherImage
  split
  · next htruthy =>
    obtain ⟨fields, rfl, -⟩ := Declared.record_inv (Declared.of_truthy h htruthy)
    exact ⟨_, rfl⟩
  · exact ⟨_, rfl⟩

theorem forIcon_succeeds {field range fallback : Json} {style : Icon.Style}
    (hfield : optional Declared.column field = true)
    (hrange : optional Declared.markerRange range = true) :
    Succeeds (forIcon field range fallback style data) := by
  refine Result.Succeeds.bind (otherImage_succeeds hrange) fun url => ?_
  split
  · exact ⟨_, rfl⟩
  · next hpresent =>
    simp only [Bool.or_eq_true, Bool.not_eq_true', not_or, Bool.not_eq_false] at hpresent
    obtain ⟨name, hcolumn⟩ := Declared.column_inv (Declared.of_truthy hfield hpresent.2)
    obtain ⟨fields, rfl, hfields⟩ := Declared.record_inv (Declared.of_truthy hrange hpresent.1)
    have hmarkers := markersOf_succeeds style (hfields "markerMap" rfl)
    simp only [Json.lookup, Result.ok_bind, hcolumn.field_name]
    exact hmarkers.bind fun markers => ⟨_, rfl⟩

end Accessor

namespace Icon

theorem ceiling_succeeds {size : Json} (h : Declared.finite size = true) :
    Succeeds (size.operand >>= fun n => n.toInt Rat.ceil) := by
  cases size with
  | int n => exact ⟨n, rfl⟩
  | float x => exact (Color.toInt_float_succeeds_iff Rat.ceil).mpr h
  | _ => simp [Declared.finite] at h

theorem item_of_range {range : Json} (h : Declared.numberRange range = true) :
    ∃ size, range.item 1 = .ok size ∧ Declared.finite size = true := by
  cases range with
  | list items =>
    match items, h with
    | _ :: size :: rest, h =>
      simp only [Declared.numberRange, List.all_cons, Bool.and_eq_true] at h
      exact ⟨size, rfl, h.2.2.1⟩
  | _ => simp [Declared.numberRange] at h

/-- Icons have a size, whether a range of radii gives it or a fixed radius. -/
theorem largestSize_succeeds {vis channels : Json.Fields}
    (hradius : optional Declared.finite (Json.fieldOf vis "radius") = true)
    (hrange : optional Declared.numberRange (Json.fieldOf vis "radiusRange") = true) :
    Succeeds (largestSize (.object vis) (.object channels)) := by
  generalize hradiusOf : Json.fieldOf vis "radius" = radius at hradius
  have hfixed : Declared.finite (if radius.isNull then .int defaultRadius else radius) = true := by
    rcases Declared.optional_iff.mp hradius with rfl | hfinite
    · rfl
    · split
      · rfl
      · exact hfinite
  -- The size is the same function of either column of the radius.
  have hsize (field : Json) : Succeeds (do
      let size ← if (Json.fieldOf vis "radiusRange").truthy && field.truthy
        then (Json.fieldOf vis "radiusRange").item 1
        else pure (if radius.isNull then .int defaultRadius else radius)
      let n ← size.operand
      n.toInt Rat.ceil) := by
    split
    · next hboth =>
      have hpresent := (Bool.and_eq_true_iff.mp hboth).1
      obtain ⟨size, hitem, hfinite⟩ := item_of_range (Declared.of_truthy hrange hpresent)
      rw [hitem]
      exact ceiling_succeeds hfinite
    · exact ceiling_succeeds hfixed
  simp only [largestSize, Json.lookup, Result.ok_bind, hradiusOf]
  split
  · exact hsize _
  · exact hsize _

end Icon

end MapLayers
