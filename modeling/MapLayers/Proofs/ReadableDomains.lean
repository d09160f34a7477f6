import MapLayers.Proofs.DeclaredShapes
import MapLayers.Proofs.Results

/-!
# Which domains can be derived

From rows and from the statistics of tiles, a domain of every kind can be derived for every column. From
features it can as well, with one exception: a feature without properties is taken for a row itself, and
then a column may turn out to be its geometry.
-/

namespace MapLayers

open Result (Succeeds succeeds_bind)
open Declared (fitsDouble listOf optional record)

theorem Json.properNumber?_succeeds_iff {value : Json} :
    Succeeds value.properNumber? ↔ fitsDouble value = true := by
  cases value with
  | int n =>
    cases hn : Binary64.nearest? (n : Rat) <;>
      simp [properNumber?, number?, Number.toFloat, Number.ofInt?, fitsDouble, hn]
  | _ => simp [properNumber?, number?, Number.toFloat, fitsDouble]

theorem Statistics.numbers_succeeds_iff {values : List Json} :
    Succeeds (numbers values) ↔ ∀ value ∈ values, fitsDouble value = true := by
  induction values with
  | nil => simp [numbers]
  | cons value rest ih =>
    rw [List.forall_mem_cons, ← Json.properNumber?_succeeds_iff, ← ih]
    -- The numbers of the rest are needed whether or not the first value is one.
    refine Result.succeeds_bind_iff fun n => ?_
    cases n <;> simp

namespace Domain

/-- The values that a domain of a shape can be made from. -/
def Shape.takes : Shape → Json → Bool
  | .categories, value => value.hashable
  | _, value => fitsDouble value

theorem Shape.takes_null (shape : Shape) : shape.takes .null = true := by
  cases shape <;> rfl

theorem Shape.takes_columnValue {value : Json} (shape : Shape)
    (h : Declared.columnValue value = true) : shape.takes value = true := by
  obtain ⟨hhashable, hfits⟩ := Bool.and_eq_true_iff.mp h
  cases shape <;> assumption

theorem categories_succeeds_iff {values : List Json} :
    Succeeds (categories values) ↔ ∀ value ∈ values, value.hashable = true := by
  have hall : ((values.filter fun v => !v.isNull).all Json.hashable = true) ↔
      ∀ value ∈ values, value.hashable = true := by
    simp only [List.all_eq_true, List.mem_filter]
    refine forall_congr' fun value => ?_
    cases value <;> simp [Json.isNull, Json.hashable]
  rw [← hall]
  unfold categories Tally.ofList
  split <;> simp_all

theorem ofValues_succeeds_iff {values : List Json} {shape : Shape} :
    Succeeds (ofValues values shape) ↔ ∀ value ∈ values, shape.takes value = true := by
  cases shape with
  | categories => exact categories_succeeds_iff
  | _ => simp [ofValues, Shape.takes, Statistics.numbers_succeeds_iff]

theorem ofColumn_succeeds_iff {rows : List Json} {read : Json → Result Json} {shape : Shape} :
    Succeeds (rows.mapM read >>= fun values => ofValues values shape) ↔
      ∀ row ∈ rows, ∃ value, read row = .ok value ∧ shape.takes value = true := by
  simp only [succeeds_bind, ofValues_succeeds_iff, Result.exists_mapM_iff]

theorem takes_of_row {fields : Json.Fields} (h : Declared.row (.object fields) = true)
    (shape : Shape) (name : String) : shape.takes (Json.fieldOf fields name) = true := by
  unfold Json.fieldOf
  cases hfound : Entries.get? fields name with
  | none => exact shape.takes_null
  | some value =>
    obtain ⟨entry, hentry, rfl⟩ := Entries.mem_of_get? hfound
    exact shape.takes_columnValue (List.all_eq_true.mp h entry hentry)

/-- A feature without properties of its own. -/
def isBare (feature : Json) : Bool :=
  !(Json.fieldOf feature.fieldsOrNone "properties").isObject

theorem column_of_feature {feature : Json} (h : Declared.feature feature = true)
    (hbare : isBare feature = false) (shape : Shape) (name : String) :
    ∃ value, Row.column (.text name) feature = .ok value ∧ shape.takes value = true := by
  obtain ⟨fields, rfl, hfields⟩ := Declared.record_inv h
  have hproperties := hfields "properties" rfl
  cases hinner : Json.fieldOf fields "properties" with
  | object inner =>
    rw [hinner] at hproperties
    refine ⟨Json.fieldOf inner name, ?_, takes_of_row ?_ shape name⟩
    · simp [Row.column, Row.properties, hinner, Json.lookupBy]
    · rcases Declared.optional_iff.mp hproperties with hnull | hrow
      · simp at hnull
      · exact hrow
  | _ => simp [isBare, hinner, Json.isObject] at hbare

/-- The attributes of the first layer in the statistics of tiles. -/
def attributes (fields : Json.Fields) : List Json :=
  let layers := (Json.fieldOf (Json.fieldOf fields "tilestats").fieldsOrNone "layers").itemsOrNone
  (Json.fieldOf (layers.head?.getD .null).fieldsOrNone "attributes").itemsOrNone

/-- The first attribute that describes a column. -/
def described? (fields : Json.Fields) (name : Json) : Option Json :=
  (attributes fields).find? fun entry => (Json.fieldOf entry.fieldsOrNone "attribute").same name

theorem search_eq (name : Json) {entries : List Json} (h : ∀ entry ∈ entries, entry.isObject = true) :
    attribute?.search name entries =
      .ok (entries.find? fun entry => (Json.fieldOf entry.fieldsOrNone "attribute").same name) := by
  induction entries with
  | nil => rfl
  | cons entry rest ih =>
    obtain ⟨hentry, hrest⟩ := List.forall_mem_cons.mp h
    rw [Json.eq_object_of_isObject hentry]
    cases hsame : (Json.fieldOf entry.fieldsOrNone "attribute").same name with
    | true => simp [attribute?.search, Json.lookup, hsame]
    | false => simp [attribute?.search, Json.lookup, hsame, ih hrest]

section

variable {fields : Json.Fields} {each : Declared.Shape}

theorem of_mem_attributes
    (h : optional (Declared.statisticsOf each) (Json.fieldOf fields "tilestats") = true)
    {entry : Json} (hentry : entry ∈ attributes fields) : each entry = true := by
  have hlayers := Declared.optional_field "layers" h rfl
  dsimp only [attributes] at hentry
  generalize Json.fieldOf (Json.fieldOf fields "tilestats").fieldsOrNone "layers" = layers
    at hlayers hentry
  have hfirst : optional (record [("attributes", listOf each)])
      (layers.itemsOrNone.head?.getD .null) = true := by
    rcases Declared.optional_iff.mp hlayers with rfl | hlist
    · rfl
    · obtain ⟨items, rfl, hitems⟩ := Declared.listOf_inv hlist
      cases items with
      | nil => rfl
      | cons first rest => exact Declared.optional_iff.mpr (.inr (hitems first (by simp)))
  have hattributes := Declared.optional_field "attributes" hfirst rfl
  rcases Declared.optional_iff.mp hattributes with hnull | hlist
  · simp [hnull] at hentry
  · obtain ⟨items, hequal, hitems⟩ := Declared.listOf_inv hlist
    simp only [hequal, Json.itemsOrNone_list] at hentry
    exact hitems entry hentry

theorem attribute?_eq
    (h : optional (Declared.statisticsOf each) (Json.fieldOf fields "tilestats") = true)
    (hobject : ∀ entry, each entry = true → entry.isObject = true) (name : Json) :
    attribute? fields name = .ok (described? fields name) := by
  have hentries : ∀ entry ∈ attributes fields, entry.isObject = true :=
    fun entry hentry => hobject entry (of_mem_attributes h hentry)
  have hlayers := Declared.optional_field "layers" h rfl
  simp only [attribute?, Declared.orElse_record h, Json.lookup, Result.ok_bind]
  dsimp only [described?, attributes] at hentries ⊢
  generalize Json.fieldOf (Json.fieldOf fields "tilestats").fieldsOrNone "layers" = layers
    at hlayers hentries ⊢
  cases htruthy : layers.truthy with
  | false =>
    simp [Json.itemsOrNone_of_not_truthy htruthy]
  | true =>
    obtain ⟨items, rfl, hitems⟩ := Declared.listOf_inv (Declared.of_truthy hlayers htruthy)
    obtain ⟨first, rest, rfl⟩ : ∃ first rest, items = first :: rest :=
      List.exists_cons_of_ne_nil (by rintro rfl; simp [Json.truthy] at htruthy)
    obtain ⟨inner, rfl, hinner⟩ := Declared.record_inv (hitems first (by simp))
    have hattributes := hinner "attributes" rfl
    have hfirst : (Json.list (.object inner :: rest)).item 0 = .ok (.object inner) := rfl
    simp only [hfirst, Result.ok_bind, Json.itemsOrNone_list, List.head?_cons, Option.getD_some,
      Json.fieldsOrNone_object] at hentries ⊢
    cases hany : (Json.fieldOf inner "attributes").truthy with
    | false =>
      simp [Json.itemsOrNone_of_not_truthy hany]
    | true =>
      obtain ⟨entries, hequal, -⟩ := Declared.listOf_inv (Declared.of_truthy hattributes hany)
      rw [hequal] at hentries ⊢
      exact search_eq name hentries

end

/-- An attribute in the statistics of tiles. -/
def IsAttribute (entry : Json) : Prop :=
  record [("categories", listOf Json.isObject)] entry = true

theorem ofStatistics_succeeds {column : Json} (h : IsAttribute column) (shape : Shape) :
    Succeeds (ofStatistics column shape) := by
  obtain ⟨fields, rfl, hfields⟩ := Declared.record_inv h
  have hcategories := hfields "categories" rfl
  simp only [ofStatistics, Json.lookup, Result.ok_bind]
  split
  · next hlisted =>
    obtain ⟨items, hitems, hall⟩ :=
      Declared.elements_of_list hcategories (Bool.and_eq_true_iff.mp hlisted).2
    simp only [hitems, Result.ok_bind, Result.succeeds_mapM]
    intro item hitem
    rw [Json.eq_object_of_isObject (hall item hitem)]
    exact ⟨_, rfl⟩
  · exact ⟨_, rfl⟩

/-- The features without properties from which a domain may be derived. -/
def bareFeatures : Json → List Json
  | .object fields =>
    if Entries.has fields "tilestats" then []
    else (Json.fieldOf fields "features").itemsOrNone.filter isBare
  | _ => []

/-- Features without properties hold nothing under the name of a column that a domain of the shape
cannot take. -/
def Readable (data name : Json) (shape : Shape) : Prop :=
  ∀ feature ∈ bareFeatures data, ∃ value, Row.column name feature = .ok value ∧
    shape.takes value = true

theorem ofFeatures_succeeds_iff {features : List Json}
    (h : ∀ feature ∈ features, Declared.feature feature = true) (name : String) (shape : Shape) :
    Succeeds (features.mapM (Row.column (.text name)) >>= fun values => ofValues values shape) ↔
      ∀ feature ∈ features.filter isBare, ∃ value, Row.column (.text name) feature = .ok value ∧
        shape.takes value = true := by
  simp only [ofColumn_succeeds_iff, List.mem_filter, and_imp]
  refine forall_congr' fun feature => forall_congr' fun hfeature => ?_
  cases hbare : isBare feature with
  | true => simp
  | false => simpa using column_of_feature (h feature hfeature) hbare shape name

theorem ofRows_succeeds {rows : List Json} (h : ∀ row ∈ rows, Declared.row row = true)
    (name : String) (shape : Shape) :
    Succeeds ((rows.filter Json.isObject).mapM (fun row => row.lookupBy (.text name)) >>=
      fun values => ofValues values shape) := by
  rw [ofColumn_succeeds_iff]
  intro row hrow
  have hflat := h row (List.mem_filter.mp hrow).1
  cases row with
  | object fields => exact ⟨_, rfl, takes_of_row hflat shape name⟩
  | _ => simp [Declared.row] at hflat

/-- From data of its declared shape a domain can be derived exactly if the features without properties
can be read. -/
theorem ofData_succeeds_iff {data : Json} (h : optional Declared.data data = true) (name : String)
    (shape : Shape) :
    Succeeds (ofData data (.text name) shape) ↔ Readable data (.text name) shape := by
  have hempty : Succeeds (ofValues [] shape) := ofValues_succeeds_iff.mpr (by simp)
  rcases Declared.optional_iff.mp h with rfl | h
  · exact iff_of_true hempty (by simp [Readable, bareFeatures])
  · rcases Bool.or_eq_true_iff.mp h with hrows | hcollection
    · obtain ⟨rows, rfl, hflat⟩ := Declared.listOf_inv hrows
      exact iff_of_true (ofRows_succeeds hflat name shape) (by simp [Readable, bareFeatures])
    · obtain ⟨fields, rfl, hfields⟩ := Declared.record_inv hcollection
      have hfeatures := hfields "features" rfl
      have hstatistics := hfields "tilestats" rfl
      unfold ofData Readable bareFeatures
      dsimp only
      by_cases htiled : Entries.has fields "tilestats" = true
      · rw [if_pos htiled, if_pos htiled]
        rw [attribute?_eq hstatistics (fun _ => Declared.isObject_of_record) (.text name), Result.ok_bind]
        refine iff_of_true ?_ (by simp)
        cases hfound : described? fields (.text name) with
        | none => exact Result.succeeds_pure _
        | some entry =>
          have hattribute : IsAttribute entry :=
            of_mem_attributes hstatistics (List.mem_of_find?_eq_some hfound)
          exact ofStatistics_succeeds hattribute shape
      · rw [if_neg htiled, if_neg htiled]
        unfold Row.columnValues
        dsimp only
        rcases Declared.optional_iff.mp hfeatures with hnull | hlist
        · simpa [hnull, Json.itemsOrNone] using hempty
        · obtain ⟨features, hequal, hshapes⟩ := Declared.listOf_inv hlist
          rw [hequal]
          exact ofFeatures_succeeds_iff hshapes name shape

end Domain

end MapLayers
