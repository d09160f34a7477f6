import Mathlib.Data.List.Forall2
import MapLayers.Proofs.AccessorPlaces
import MapLayers.Proofs.SubLayers

/-!
# Points at their altitude

A point layer with an altitude column brings a step for its data along, which sets the third coordinate of
every point to the column. Apart from these coordinates the data stays as it is, and a second run of the
step changes nothing. The step needs geometries that are objects or missing, and of points also properties
of this kind and a column that can be a key.
-/

namespace MapLayers

/-- The value is an object, unless it counts as absent. -/
def Json.ObjectIfAny (value : Json) : Prop := value.truthy = true → value.isObject = true

namespace Altitude

open Result (Succeeds)

/-- The second object has the fields of the first in their order, and only the field of a key differs. -/
structure Replaces (before after : Json.Fields) (key : String) (value : Json) : Prop where
  keys : after.keys = before.keys
  replaced : Entries.get? after key = some value
  others : ∀ other, other ≠ key → Entries.get? after other = Entries.get? before other

variable {before after : Json.Fields} {key other : String} {value : Json}

theorem replaces_set (h : Entries.has before key = true) (value : Json) :
    Replaces before (Entries.set before key value) key value :=
  ⟨by rw [Entries.keys_set, if_pos h], Entries.get?_set_self _ _ _,
    fun _ hother => Entries.get?_set_of_ne _ _ hother.symm⟩

theorem Replaces.fieldOf (h : Replaces before after key value) : Json.fieldOf after key = value := by
  rw [Json.fieldOf, h.replaced, Option.getD_some]

theorem Replaces.fieldOf_of_ne (h : Replaces before after key value) (hother : other ≠ key) :
    Json.fieldOf after other = Json.fieldOf before other := by
  rw [Json.fieldOf, h.others other hother, Json.fieldOf]

theorem Replaces.set_eq (h : Replaces before after key value) : Entries.set after key value = after :=
  Entries.set_eq_self h.replaced

/-- The fields of the geometry of a feature. -/
def geometryOf (feature : Json.Fields) : Json.Fields := (Json.fieldOf feature "geometry").fieldsOrNone

def isPoint (feature : Json.Fields) : Bool := (Json.fieldOf (geometryOf feature) "type").isTheText "Point"

/-- The altitude of a feature, null if its properties do not have it. -/
def heightOf (column : Json) (feature : Json.Fields) : Json :=
  match column with
  | .text name => Json.fieldOf (Json.fieldOf feature "properties").fieldsOrNone name
  | _ => .null

/-- A point has two coordinates or more. -/
def Planar (feature : Json.Fields) : Prop :=
  isPoint feature = true → ∃ x y rest, Json.fieldOf (geometryOf feature) "coordinates" = .list (x :: y :: rest)

/-- What the step needs of a feature. -/
structure Liftable (column : Json) (feature : Json.Fields) : Prop where
  geometry : (Json.fieldOf feature "geometry").ObjectIfAny
  properties : isPoint feature = true → (Json.fieldOf feature "properties").ObjectIfAny
  column : isPoint feature = true → column.hashable = true

/-- How a feature and its lifted form differ: not at all unless it is a point, and then in the coordinates
of its geometry alone. -/
structure Lifted (column : Json) (before after : Json.Fields) : Prop where
  other : isPoint before = false → after = before
  point : isPoint before = true → ∃ geometry lifted x y rest,
    Entries.get? before "geometry" = some (.object geometry) ∧
    Entries.get? geometry "coordinates" = some (.list (x :: y :: rest)) ∧
    Replaces before after "geometry" (.object lifted) ∧
    Replaces geometry lifted "coordinates" (.list [x, y, heightOf column before])

variable {column : Json} {feature : Json.Fields}

theorem isPoint_geometry (h : isPoint feature = true) :
    ∃ geometry, Entries.get? feature "geometry" = some (.object geometry) ∧ geometryOf feature = geometry := by
  unfold isPoint geometryOf at h
  unfold geometryOf
  unfold Json.fieldOf at h ⊢
  cases hfound : Entries.get? feature "geometry" with
  | none => simp [hfound, Json.isTheText] at h
  | some found =>
    cases found with
    | object geometry => exact ⟨geometry, rfl, rfl⟩
    | _ => simp [hfound, Json.fieldsOrNone, Json.isTheText] at h

theorem get?_of_fieldOf {fields : Json.Fields} {items : List Json} (h : Json.fieldOf fields key = .list items) :
    Entries.get? fields key = some (.list items) := by
  unfold Json.fieldOf at h
  cases hfound : Entries.get? fields key with
  | none => simp [hfound] at h
  | some found => simpa [hfound] using h

/-- The step for a point. -/
def liftPoint (column : Json) (feature : Json.Fields) : Result Json := do
  let height ← ((Json.fieldOf feature "properties").orElse (.object [])).lookupBy column
  let coordinates ← (Json.object (geometryOf feature)).field "coordinates"
  let plane ← coordinates.firstItems 2
  return .object (Entries.set feature "geometry"
    (.object (Entries.set (geometryOf feature) "coordinates" (.list (plane ++ [height])))))

theorem lift_eq (h : (Json.fieldOf feature "geometry").ObjectIfAny) : lift column (.object feature) =
    if isPoint feature then liftPoint column feature else .ok (.object feature) := by
  simp only [lift, Json.lookup, Result.ok_bind, Json.orElse_object h, Json.fieldsOrNone_object]
  have hpoint : (Json.fieldOf (Json.fieldOf feature "geometry").fieldsOrNone "type").isTheText "Point" =
      isPoint feature := rfl
  rw [hpoint]
  cases isPoint feature <;> rfl

theorem geometry_of_succeeds (h : Succeeds (lift column (.object feature))) :
    (Json.fieldOf feature "geometry").ObjectIfAny := by
  intro htruthy
  obtain ⟨found, h⟩ := h
  simp only [lift, Json.lookup, Result.ok_bind, Json.orElse_of_truthy htruthy] at h
  cases hgeometry : Json.fieldOf feature "geometry" with
  | object fields => rfl
  | _ => simp [hgeometry] at h

theorem lookupBy_succeeds_iff {fields : Json.Fields} :
    Succeeds ((Json.object fields).lookupBy column) ↔ column.hashable = true := by
  cases column <;> simp [Json.lookupBy, Json.hashable]

theorem properties_lookupBy (h : (Json.fieldOf feature "properties").ObjectIfAny)
    (hcolumn : column.hashable = true) :
    ((Json.fieldOf feature "properties").orElse (.object [])).lookupBy column = .ok (heightOf column feature) := by
  rw [Json.orElse_object h]
  cases column with
  | list | object => simp [Json.hashable] at hcolumn
  | _ => rfl

theorem properties_of_succeeds
    (h : Succeeds (((Json.fieldOf feature "properties").orElse (.object [])).lookupBy column)) :
    (Json.fieldOf feature "properties").ObjectIfAny ∧ column.hashable = true := by
  have hobject : (Json.fieldOf feature "properties").ObjectIfAny := by
    intro htruthy
    rw [Json.orElse_of_truthy htruthy] at h
    cases hproperties : Json.fieldOf feature "properties" with
    | object fields => rfl
    | _ => simp [hproperties, Json.lookupBy] at h
  rw [Json.orElse_object hobject] at h
  exact ⟨hobject, lookupBy_succeeds_iff.mp h⟩

theorem liftPoint_lifted (hpoint : isPoint feature = true) (hplanar : Planar feature)
    (hproperties : (Json.fieldOf feature "properties").ObjectIfAny) (hcolumn : column.hashable = true) :
    ∃ after, liftPoint column feature = .ok (.object after) ∧ Lifted column feature after := by
  obtain ⟨geometry, hgeometry, hfields⟩ := isPoint_geometry hpoint
  obtain ⟨x, y, rest, hcoordinates⟩ := hplanar hpoint
  rw [hfields] at hcoordinates
  have hfound := get?_of_fieldOf hcoordinates
  have hfield : (Json.object geometry).field "coordinates" = .ok (.list (x :: y :: rest)) := by
    simp [Json.field, Json.select, hfound]
  refine ⟨Entries.set feature "geometry"
    (.object (Entries.set geometry "coordinates" (.list [x, y, heightOf column feature]))), ?_, ?_⟩
  · simp only [liftPoint, properties_lookupBy hproperties hcolumn, hfields, hfield, Json.firstItems, Result.ok_bind]
    rfl
  · refine ⟨fun hother => by simp [hpoint] at hother, fun _ => ⟨geometry, _, x, y, rest, hgeometry, hfound,
      replaces_set (by simp [Entries.has, hgeometry]) _, replaces_set (by simp [Entries.has, hfound]) _⟩⟩

theorem lift_lifted (hplanar : Planar feature) (h : Liftable column feature) :
    ∃ after, lift column (.object feature) = .ok (.object after) ∧ Lifted column feature after := by
  rw [lift_eq h.geometry]
  cases hpoint : isPoint feature with
  | false => exact ⟨feature, rfl, fun _ => rfl, fun htrue => by simp [hpoint] at htrue⟩
  | true => exact liftPoint_lifted hpoint hplanar (h.properties hpoint) (h.column hpoint)

theorem lift_succeeds_iff (hplanar : Planar feature) :
    Succeeds (lift column (.object feature)) ↔ Liftable column feature := by
  constructor
  · intro h
    have hgeometry := geometry_of_succeeds h
    rw [lift_eq hgeometry] at h
    have hlookup (hpoint : isPoint feature = true) :
        Succeeds (((Json.fieldOf feature "properties").orElse (.object [])).lookupBy column) := by
      rw [hpoint, if_pos rfl, liftPoint, Result.succeeds_bind] at h
      obtain ⟨height, hheight, -⟩ := h
      exact ⟨height, hheight⟩
    exact ⟨hgeometry, fun hpoint => (properties_of_succeeds (hlookup hpoint)).1,
      fun hpoint => (properties_of_succeeds (hlookup hpoint)).2⟩
  · intro h
    obtain ⟨after, hafter, -⟩ := lift_lifted hplanar h
    exact ⟨_, hafter⟩

theorem Lifted.isPoint_eq (h : Lifted column before after) : isPoint after = isPoint before := by
  cases hpoint : isPoint before with
  | false => rw [h.other hpoint, hpoint]
  | true =>
    obtain ⟨geometry, lifted, x, y, rest, hgeometry, -, hfeature, hlifted⟩ := h.point hpoint
    have hgeometryOf : geometryOf before = geometry := by
      rw [geometryOf, Json.fieldOf, hgeometry]
      rfl
    rw [← hpoint, isPoint, isPoint, geometryOf, hfeature.fieldOf, Json.fieldsOrNone_object,
      hlifted.fieldOf_of_ne (by decide), hgeometryOf]

theorem Lifted.heightOf_eq (h : Lifted column before after) : heightOf column after = heightOf column before := by
  cases hpoint : isPoint before with
  | false => rw [h.other hpoint]
  | true =>
    obtain ⟨geometry, lifted, x, y, rest, -, -, hfeature, -⟩ := h.point hpoint
    unfold heightOf
    rw [hfeature.fieldOf_of_ne (by decide)]

theorem Lifted.lift_self (h : Lifted column before after) (hbefore : Liftable column before) :
    lift column (.object after) = .ok (.object after) := by
  cases hpoint : isPoint before with
  | false =>
    obtain rfl := h.other hpoint
    rw [lift_eq hbefore.geometry, hpoint]
    rfl
  | true =>
    obtain ⟨geometry, lifted, x, y, rest, -, -, hfeature, hlifted⟩ := h.point hpoint
    have hfields : geometryOf after = lifted := by rw [geometryOf, hfeature.fieldOf, Json.fieldsOrNone_object]
    have hproperties : (Json.fieldOf after "properties").ObjectIfAny := by
      rw [hfeature.fieldOf_of_ne (by decide)]
      exact hbefore.properties hpoint
    have hfield : (Json.object lifted).field "coordinates" = .ok (.list [x, y, heightOf column before]) := by
      simp [Json.field, Json.select, hlifted.replaced]
    rw [lift_eq fun _ => by rw [hfeature.fieldOf]; rfl, h.isPoint_eq, hpoint, if_pos rfl]
    simp only [liftPoint, properties_lookupBy hproperties (hbefore.column hpoint), h.heightOf_eq, hfields, hfield,
      Json.firstItems, Result.ok_bind, List.take_succ_cons, List.take_zero, List.cons_append, List.nil_append,
      hlifted.set_eq, hfeature.set_eq]
    rfl

/-- The features that data has under their name. What counts as absent stands for none. -/
def HasFeatures (fields : Json.Fields) (rows : List Json.Fields) : Prop :=
  ∃ features, Entries.get? fields "features" = some features ∧
    (features = .list (rows.map .object) ∨ features.truthy = false ∧ rows = [])

variable {fields : Json.Fields} {rows lifted : List Json.Fields}

theorem transform_eq (h : HasFeatures fields rows) : transform column (.object fields) = (do
    let lifted ← rows.mapM fun row => lift column (.object row)
    return .object (Entries.set fields "features" (.list lifted))) := by
  obtain ⟨features, hfound, hcases⟩ := h
  simp only [transform, hfound]
  obtain rfl | ⟨hfalsy, rfl⟩ := hcases
  · cases rows with
    | nil => rfl
    | cons row rest =>
      have htruthy : (Json.list ((row :: rest).map .object)).truthy = true := rfl
      simp only [htruthy, if_true, Json.elements, Result.ok_bind, List.mapM_map]
      rfl
  · simp only [hfalsy, Bool.false_eq_true, if_false]
    rfl

theorem mapM_lifted (hplanar : ∀ row ∈ rows, Planar row) (h : ∀ row ∈ rows, Liftable column row) :
    ∃ lifted : List Json.Fields,
      rows.mapM (fun row => lift column (.object row)) = .ok (lifted.map .object) ∧
        List.Forall₂ (Lifted column) rows lifted := by
  induction rows with
  | nil => exact ⟨[], rfl, .nil⟩
  | cons row rest ih =>
    obtain ⟨hrow, hrest⟩ := List.forall_mem_cons.mp h
    obtain ⟨hrowPlanar, hrestPlanar⟩ := List.forall_mem_cons.mp hplanar
    obtain ⟨after, hafter, hlifted⟩ := lift_lifted hrowPlanar hrow
    obtain ⟨others, hothers, hall⟩ := ih hrestPlanar hrest
    refine ⟨after :: others, ?_, .cons hlifted hall⟩
    simp only [List.mapM_cons, hafter, hothers, Result.ok_bind]
    rfl

theorem mapM_lift_self (h : ∀ row ∈ rows, Liftable column row) (hall : List.Forall₂ (Lifted column) rows lifted) :
    lifted.mapM (fun row => lift column (.object row)) = .ok (lifted.map .object) := by
  induction hall with
  | nil => rfl
  | cons hlifted _ ih =>
    obtain ⟨hrow, hrest⟩ := List.forall_mem_cons.mp h
    simp only [List.mapM_cons, hlifted.lift_self hrow, ih hrest, Result.ok_bind]
    rfl

/-- The data that the step gives: with its features lifted in their order, and the same otherwise. -/
structure LiftedData (column : Json) (fields : Json.Fields) (rows : List Json.Fields) (result : Json) : Prop where
  lifted : ∃ after lifted, result = .object after ∧
    Replaces fields after "features" (.list (lifted.map .object)) ∧ List.Forall₂ (Lifted column) rows lifted
  again : transform column result = .ok result

theorem transform_lifted (h : HasFeatures fields rows) (hplanar : ∀ row ∈ rows, Planar row)
    (hrows : ∀ row ∈ rows, Liftable column row) :
    ∃ result, transform column (.object fields) = .ok result ∧ LiftedData column fields rows result := by
  obtain ⟨lifted, hlifted, hall⟩ := mapM_lifted hplanar hrows
  have hfeatures : Entries.has fields "features" = true := by
    obtain ⟨features, hfound, -⟩ := h
    simp [Entries.has, hfound]
  have hreplaces := replaces_set hfeatures (.list (lifted.map .object))
  refine ⟨.object (Entries.set fields "features" (.list (lifted.map .object))), ?_,
    ⟨⟨_, lifted, rfl, hreplaces, hall⟩, ?_⟩⟩
  · rw [transform_eq h, hlifted]
    rfl
  · rw [transform_eq ⟨_, hreplaces.replaced, .inl rfl⟩, mapM_lift_self hrows hall, Result.ok_bind,
      hreplaces.set_eq]
    rfl

theorem transform_succeeds_iff (h : HasFeatures fields rows) (hplanar : ∀ row ∈ rows, Planar row) :
    Succeeds (transform column (.object fields)) ↔ ∀ row ∈ rows, Liftable column row := by
  rw [transform_eq h, Result.succeeds_bind_left fun _ => Result.succeeds_pure _, Result.succeeds_mapM]
  exact forall₂_congr fun row hrow => lift_succeeds_iff (hplanar row hrow)

end Altitude

namespace Channels

variable {c : Context} {props next : Props} {value : PropValue}

/-- The column that gives points their altitude. -/
def altitudeColumn (layer : Layer) : Json :=
  Json.fieldOf (Json.fieldOf layer.config "columns").fieldsOrNone "altitude"

/-- The props have the step of an altitude column. -/
def HasAltitude (props : Props) (column : Json) : Prop :=
  Entries.get? props "dataTransform" = some (.accessor (.altitude column))

variable {column : Json}

theorem pointAltitude_hasAltitude (h : pointAltitude c props = .ok next)
    (htruthy : (altitudeColumn c.layer).truthy = true) : HasAltitude next (altitudeColumn c.layer) := by
  simp only [pointAltitude, Result.bind_eq_ok_iff] at h
  obtain ⟨altitude, hlookup, h⟩ := h
  obtain rfl : altitude = altitudeColumn c.layer := Json.eq_fieldOf_of_lookup_orElse hlookup
  rw [htruthy] at h
  obtain rfl := Except.ok.inj h
  exact get?_put_self _ _ _

namespace HasAltitude

theorem put (h : HasAltitude props column) {key : String} (hkey : key ≠ "dataTransform") :
    HasAltitude (put props key value) column :=
  (get?_put_of_ne _ _ hkey).trans h

theorem of_resolves {channel : Channel} (h : HasAltitude props column) (hnext : Resolves channel props next) :
    HasAltitude next column := by
  obtain rfl | ⟨a, -, rfl⟩ := hnext
  · exact h
  · exact h.put (by cases channel <;> decide)

theorem markers (h : HasAltitude props column) (hrun : markers c props = .ok next) :
    HasAltitude next column := by
  obtain ⟨wanted, -, ⟨-, hicons⟩ | ⟨-, rfl⟩⟩ := markers_inv hrun
  · obtain ⟨size, filled, icon, -, -, hangle⟩ := icons_inv hicons
    rw [HasAltitude, iconAngle_get? hangle (by decide), withIconSize_get? (by decide),
      withIconColor_get? (by decide), iconStart, putText, get?_put_of_ne _ _ (by decide),
      get?_put_of_ne _ _ (by decide), get?_put_of_ne _ _ (by decide), h]
  · unfold withPlainMarks
    split
    · exact h.put (by decide)
    · exact h

theorem labels (h : HasAltitude props column) (hrun : labels c props = .ok next) : HasAltitude next column := by
  obtain ⟨-, rfl⟩ | ⟨-, main, secondary, -, hmain⟩ := labels_cases hrun
  · exact h
  · obtain ⟨set, text, room, second, hset, -, -, -, rfl⟩ := mainLabel_inv hmain
    have hkept : HasAltitude set column :=
      ((labelSettings_spec (by decide) hset).1 "dataTransform" (by decide)).trans h
    unfold HasAltitude at hkept ⊢
    rw [get?_put_of_ne _ _ (by decide)]
    simpa [labelStart, withTextFace, putText, get?_put_of_ne] using hkept

end HasAltitude

theorem resolve_hasAltitude (h : resolve c = .ok props) (htype : c.layer.type = "point")
    (htruthy : (altitudeColumn c.layer).truthy = true) : HasAltitude props (altitudeColumn c.layer) := by
  obtain ⟨colored, typed, sized, stroked, raised, weighted, marked, -, htyped, hsized, hstroked, hraised,
    hweighted, hmarked, hlabelled⟩ := resolve_inv h
  rw [typeSpecific, if_pos htype] at htyped
  have hstart := pointAltitude_hasAltitude htyped htruthy
  have hsizes := (hstart.of_resolves (pointRadius_inv hsized)).of_resolves (strokeColor_inv hstroked)
  have hweights := (hsizes.of_resolves (height_inv hraised)).of_resolves (weight_inv hweighted)
  exact (hweights.markers hmarked).labels hlabelled

end Channels

namespace CompiledMap

open Altitude (HasFeatures Liftable LiftedData Planar transform)
open Channels (altitudeColumn)
open Result (Succeeds)

/-- How a layer lifts the points of its data to the altitude of a column. -/
structure LiftsPoints (props : Props) (column : Json) : Prop where
  holds : Props.Holds props ["dataTransform"] (.altitude column)
  runs : ∀ data kept, (Accessor.altitude column).call [data] kept = (transform column data, kept)
  aside : ∀ data, (∀ fields, data = .object fields → Entries.has fields "features" = false) →
    transform column data = .ok data
  succeeds_iff : ∀ fields rows, HasFeatures fields rows → (∀ row ∈ rows, Planar row) →
    (Succeeds (transform column (.object fields)) ↔ ∀ row ∈ rows, Liftable column row)
  lifted : ∀ fields rows result, HasFeatures fields rows → (∀ row ∈ rows, Planar row) →
    transform column (.object fields) = .ok result → LiftedData column fields rows result

theorem liftsPoints_of_holds {props : Props} {column : Json}
    (h : Props.Holds props ["dataTransform"] (.altitude column)) : LiftsPoints props column := by
  refine ⟨h, fun _ _ => rfl, fun data haside => ?_, fun _ _ => Altitude.transform_succeeds_iff,
    fun fields rows result hfeatures hplanar hrun => ?_⟩
  · cases data with
    | object fields =>
      have hnone : Entries.get? fields "features" = none := by
        simpa [Entries.has] using haside fields rfl
      simp only [transform, hnone]
    | _ => rfl
  · have hrows := (Altitude.transform_succeeds_iff hfeatures hplanar).mp ⟨result, hrun⟩
    obtain ⟨found, hfound, hlifted⟩ := Altitude.transform_lifted hfeatures hplanar hrows
    obtain rfl : found = result := Except.ok.inj (hfound.symm.trans hrun)
    exact hlifted

/-- A compiled point layer with an altitude column lifts the points of its data, and does nothing else to
the data. -/
theorem altitude_lifts_points {token : Json} {fields : Json.Fields} {whole : Compilation}
    (h : ofFields token fields = .ok whole) {layer : LayerDescriptor} (hmem : layer ∈ whole.map.layers) :
    (∃ entry a, Origin token fields entry a layer) ∧
    ∀ entry a, Origin token fields entry a layer → layer.type = "point" →
      (altitudeColumn a.layer).truthy = true → LiftsPoints layer.props (altitudeColumn a.layer) := by
  refine ⟨exists_origin h hmem, fun entry a horigin htype htruthy => liftsPoints_of_holds ?_⟩
  obtain ⟨channels, hchannels, hprops⟩ := horigin.get?
  have haltitude := Channels.resolve_hasAltitude hchannels (horigin.type.symm.trans htype) htruthy
  refine Props.holds_cons.mpr ⟨_, ?_, rfl⟩
  rw [hprops, Assembly.lookup_of_channels haltitude (by decide)]

/-- A document with a point layer that takes its altitude from a column. -/
def altitudeDocument : Json.Fields :=
  [("datasets", .list [.object [("id", .text "d"), ("data", .list [])]]),
    ("keplerMapConfig", .object [("version", .text "v1"), ("config", .object [("visState", .object
      [("layers", .list [.object [("id", .text "a"), ("type", .text "point"),
        ("config", .object [("dataId", .text "d"),
          ("columns", .object [("altitude", .text "height")])])]])])])])]

theorem altitude_lifts_points_column : ∃ whole layer, ofFields .null altitudeDocument = .ok whole ∧
    layer ∈ whole.map.layers ∧ layer.type = "point" ∧ LiftsPoints layer.props (.text "height") := by
  obtain ⟨whole, layer, hwhole, hmem, htype⟩ : ∃ whole layer,
      ofFields .null altitudeDocument = .ok whole ∧ layer ∈ whole.map.layers ∧ layer.type = "point" :=
    ⟨_, _, rfl, List.Mem.head _, rfl⟩
  obtain ⟨⟨entry, a, horigin⟩, hlifts⟩ := altitude_lifts_points hwhole hmem
  have hcolumn : altitudeColumn a.layer = .text "height" := by
    obtain rfl := List.mem_singleton.mp (show entry ∈ [_] from horigin.listed)
    rw [← Except.ok.inj horigin.layer]
    rfl
  exact ⟨whole, layer, hwhole, hmem, htype,
    hcolumn ▸ hlifts entry a horigin htype (by rw [hcolumn]; rfl)⟩

def textGeometry : Json.Fields := [("features", .list [.object [("geometry", .text "abc")]])]

/-- A geometry that is no object is no point, but the step fails on it. -/
theorem text_geometry_fails : ∃ whole layer, ofFields .null altitudeDocument = .ok whole ∧
    layer ∈ whole.map.layers ∧ Props.Holds layer.props ["dataTransform"] (.altitude (.text "height")) ∧
    HasFeatures textGeometry [[("geometry", .text "abc")]] ∧ Planar [("geometry", .text "abc")] ∧
    ((Accessor.altitude (.text "height")).call [.object textGeometry] .nothing).1 = .error .noMember :=
  ⟨_, _, rfl, List.Mem.head _, rfl, ⟨_, rfl, .inl rfl⟩, fun hpoint => Bool.noConfusion hpoint, rfl⟩

end CompiledMap

end MapLayers
