import MapLayers.Proofs.Categories
import MapLayers.Proofs.Palettes
import MapLayers.Proofs.SettledNames

/-!
# Categorical colors

An ordinal color accessor gives the colors of its palette to the values of a column by their frequency: the
value that occurs most often has the first color, and values for which there is no color left have the
unknown one, as have null and values that do not occur. The order of the rows makes no difference.
-/

namespace MapLayers

namespace Row

/-- The data holds some rows, as the features of a collection or as the rows of a table. -/
def HoldsRows (features : Bool) (data : Json) (rows : List Json) : Prop :=
  if features then ∃ fields, data = .object fields ∧ Entries.has fields "tilestats" = false ∧
    Json.fieldOf fields "features" = .list rows
  else data = .list rows

variable {features : Bool} {data data' : Json} {rows rows' values : List Json} {name : Json}

theorem HoldsRows.isFeatureData_eq (h : HoldsRows features data rows) :
    isFeatureData data = features := by
  cases features with
  | false =>
    obtain rfl : data = .list rows := h
    rfl
  | true =>
    obtain ⟨fields, rfl, -, hfeatures⟩ := h
    have hhas : Entries.has fields "features" = true := by
      cases hfound : Entries.get? fields "features" with
      | none => simp [Json.fieldOf, hfound] at hfeatures
      | some found => simp [Entries.has, hfound]
    simp [isFeatureData, hhas]

theorem HoldsRows.ofData_eq (h : HoldsRows features data rows) (shape : Domain.Shape) :
    Domain.ofData data name shape =
      (columnValues data name).bind fun values => Domain.ofValues values shape := by
  cases features with
  | false =>
    obtain rfl : data = .list rows := h
    rfl
  | true =>
    obtain ⟨fields, rfl, htiled, -⟩ := h
    simp only [Domain.ofData, htiled, Bool.false_eq_true, if_false]
    rfl

theorem HoldsRows.columnValues_perm (h : HoldsRows features data rows)
    (h' : HoldsRows features data' rows') (hperm : rows.Perm rows')
    (hvalues : columnValues data name = .ok values) :
    ∃ values', columnValues data' name = .ok values' ∧ values.Perm values' := by
  cases features with
  | false =>
    obtain rfl : data = .list rows := h
    obtain rfl : data' = .list rows' := h'
    exact Result.mapM_perm (hperm.filter _) hvalues
  | true =>
    obtain ⟨fields, rfl, -, hfeatures⟩ := h
    obtain ⟨fields', rfl, -, hfeatures'⟩ := h'
    simp only [columnValues, hfeatures, hfeatures'] at hvalues ⊢
    exact Result.mapM_perm hperm hvalues

end Row

namespace Domain

variable {features : Bool} {data : Json} {rows values : List Json} {name : Json}

theorem exists_ofData (hrows : Row.HoldsRows features data rows)
    (hvalues : Row.columnValues data name = .ok values)
    (hcategories : ∀ value ∈ values, value.isCategory = true) :
    ∃ listed, ByFrequency values listed ∧ ∀ data' rows', Row.HoldsRows features data' rows' →
      rows.Perm rows' → ofData data' name .categories = .ok listed := by
  obtain ⟨listed, hlisted, hany⟩ := exists_byFrequency hcategories
  refine ⟨listed, hlisted, fun data' rows' hrows' hperm => ?_⟩
  obtain ⟨values', hvalues', hperm'⟩ := hrows.columnValues_perm hrows' hperm hvalues
  rw [hrows'.ofData_eq, hvalues']
  exact hany values' hperm'

end Domain

theorem Json.same_iff_eq {a b : Json} (ha : a.isCategory = true) (hb : b.isCategory = true) :
    a.same b = true ↔ a = b := by
  cases a <;> cases b <;>
    simp_all [Json.isCategory, Json.same, Json.quantity?, Json.number?, Number.same, Number.position?]

namespace Scale

variable {listed colors : List Json} {value : Json}

theorem place?_palette (listed colors : List Json) (value : Json) :
    (Accessor.paletteScale .ordinal listed colors).place? value =
      (listed.take colors.length).findIdx? fun entry => entry.same value := rfl

theorem place?_eq_some (hlisted : ∀ entry ∈ listed, entry.isCategory = true) (hnodup : listed.Nodup)
    {i : Nat} (hvalue : listed[i]? = some value) (hi : i < colors.length) :
    (Accessor.paletteScale .ordinal listed colors).place? value = some i := by
  obtain ⟨hlt, rfl⟩ := List.getElem?_eq_some_iff.mp hvalue
  have htaken : i < (listed.take colors.length).length := by simp [hi, hlt]
  rw [place?_palette]
  refine List.findIdx?_eq_some_iff_getElem.mpr ⟨htaken, ?_, fun j hj => ?_⟩
  · rw [List.getElem_take]
    exact (Json.same_iff_eq (hlisted _ (by simp)) (hlisted _ (by simp))).mpr rfl
  · rw [List.getElem_take, Json.same_iff_eq (hlisted _ (by simp)) (hlisted _ (by simp)),
      hnodup.getElem_inj_iff]
    exact Nat.ne_of_lt hj

theorem place?_eq_none (hlisted : ∀ entry ∈ listed, entry.isCategory = true)
    (hvalue : value.isCategory = true) (hnot : value ∉ listed.take colors.length) :
    (Accessor.paletteScale .ordinal listed colors).place? value = none := by
  rw [place?_palette]
  refine List.findIdx?_eq_none_iff.mpr fun entry hentry => ?_
  have hcategory : entry.isCategory = true := hlisted entry (List.mem_of_mem_take hentry)
  rw [← Bool.not_eq_true, Json.same_iff_eq hcategory hvalue]
  rintro rfl
  exact hnot hentry

theorem value_of_listed (hlisted : ∀ entry ∈ listed, entry.isCategory = true) (hnodup : listed.Nodup)
    {i : Nat} {color : Json} (hvalue : listed[i]? = some value) (hcolor : colors[i]? = some color) :
    (Accessor.paletteScale .ordinal listed colors).value value = .ok color := by
  have hi : i < colors.length := (List.getElem?_eq_some_iff.mp hcolor).1
  have hplace := place?_eq_some hlisted hnodup hvalue hi
  show Except.ok (ordinalValue _ value) = _
  have hrange : (Accessor.paletteScale .ordinal listed colors).range = colors := rfl
  rw [ordinalValue, hplace]
  simp only [hrange, Nat.mod_eq_of_lt hi, hcolor, Option.getD_some]

theorem value_of_unlisted (hlisted : ∀ entry ∈ listed, entry.isCategory = true)
    (hvalue : value.isCategory = true) (hnot : value ∉ listed.take colors.length) :
    (Accessor.paletteScale .ordinal listed colors).value value = .ok Accessor.unknownColor := by
  show Except.ok (ordinalValue _ value) = _
  rw [ordinalValue, place?_eq_none hlisted hvalue hnot]
  rfl

end Scale

namespace Accessor

/-- An ordinal color by a column that has not been aggregated. Its domain may be that of another one. -/
structure IsOrdinal (spec : ColorSpec) (name column : String) : Prop where
  named : spec.field.field "name" = .ok (.text name)
  colored : ∃ other, spec.field.lookup "colorColumn" = .ok other ∧
    other.orElse (.text name) = .text column
  scale : spec.scale = .text "ordinal"
  aggregation : spec.aggregation = .null

variable {features : Bool} {data : Json} {rows values listed colors : List Json} {spec : ColorSpec}
  {name column : String} {alpha : Int}

theorem IsOrdinal.forColor_eq (h : IsOrdinal spec name column)
    (hpalette : Palette spec.colorRange colors) (halpha : Color.alphaOfOpacity spec.opacity = .ok alpha)
    (hdata : Row.HoldsRows features data rows)
    (hdomain : Domain.ofData data (.text column) .categories = .ok listed) (channel : Channel) :
    forColor channel spec data =
      .ok (.color ⟨channel, [.text name]⟩ (paletteScale .ordinal listed colors) alpha features) := by
  obtain ⟨other, hother, hcolumn⟩ := h.colored
  have hkind : ScaleKind.ofJson (spec.scale.orElse defaultColorScale) = .ok .ordinal := by
    rw [h.scale]
    rfl
  have hscale := colorScale_palette hpalette hkind (by decide) hdomain
  have hreader : Reader.new channel (.text name) spec.aggregation = .ok ⟨channel, [.text name]⟩ := by
    rw [h.aggregation]
    rfl
  simp only [forColor, h.named, hother, Result.ok_bind, hcolumn, hscale, halpha, hreader,
    hdata.isFeatureData_eq]
  rfl

theorem colorOfShade_eq {shade value : Json} {color : Color} (h : Color.ofJson shade = .ok color) :
    colorOfShade alpha value shade = .ok (Color.toJson
      ⟨color.red, color.green, color.blue, if value.isNull then 0 else alpha⟩) := by
  rw [colorOfShade, h]
  rfl

/-- What an ordinal color accessor makes of the categories of a column. -/
structure ColorsCategories (features : Bool) (data : Json) (rows values listed colors : List Json)
    (channel : Channel) (spec : ColorSpec) (name column : String) (alpha : Int) (a : Accessor) :
    Prop where
  /-- The domain of ordinal and point scales. -/
  domain : ∀ kind : ScaleKind, kind.isCategorical = true →
    Domain.ofData data (.text column) (.ofKind kind) = .ok listed
  ordered : Domain.ByFrequency values listed
  made : forColor channel spec data = .ok a
  listed_color : ∀ (i : Nat) value shade color, listed[i]? = some value → colors[i]? = some shade →
    Color.ofJson shade = .ok color →
    a.scaled value = .ok (Color.toJson ⟨color.red, color.green, color.blue, alpha⟩)
  other_color : ∀ value, value.isCategory = true → value ∉ listed.take colors.length →
    a.scaled value = .ok (Color.toJson ⟨134, 141, 145, if value.isNull then 0 else alpha⟩)
  /-- Rows that have the column are given the color of what they have in it. -/
  calls : ∀ calls : List (ColumnsCall features), (∀ c ∈ calls, c.columns.has name = true) →
    a.outcomes .nothing (calls.map ColumnsCall.args) =
      calls.map fun c => a.scaled (Json.fieldOf c.columns name)
  /-- Rows in any other order give the same domain and the same accessor. -/
  reordered : ∀ data' rows', Row.HoldsRows features data' rows' → rows.Perm rows' →
    (∀ kind : ScaleKind, kind.isCategorical = true →
      Domain.ofData data' (.text column) (.ofKind kind) = .ok listed) ∧
    forColor channel spec data' = .ok a

theorem ofKind_of_categorical {kind : ScaleKind} (h : kind.isCategorical = true) :
    Domain.Shape.ofKind kind = .categories := by
  cases kind <;> simp_all [ScaleKind.isCategorical, Domain.Shape.ofKind]

theorem outcomes_of_has {a : Accessor} {data : Json} (h : ReadsColumn name .null data a)
    {calls : List (ColumnsCall (Row.isFeatureData data))}
    (hcalls : ∀ c ∈ calls, c.columns.has name = true) :
    a.outcomes .nothing (calls.map ColumnsCall.args) =
      calls.map fun c => a.scaled (Json.fieldOf c.columns name) := by
  obtain ⟨p⟩ := h.parts
  cases calls with
  | nil => rfl
  | cons c later =>
    have hfirst : Reader.firstName? (Reader.names name .null) c.columns = some name := by
      simp [Reader.firstName?, Reader.names, hcalls c (by simp)]
    exact (p.keeps_nothing.calls_settling hfirst later).1

/-- An ordinal color accessor gives the colors of its palette to the categories of a column by frequency,
and the unknown color to all other ones. -/
theorem colors_by_frequency (hdata : Row.HoldsRows features data rows)
    (hvalues : Row.columnValues data (.text column) = .ok values)
    (hcategories : ∀ value ∈ values, value.isCategory = true) (hspec : IsOrdinal spec name column)
    (hpalette : Palette spec.colorRange colors) (halpha : Color.alphaOfOpacity spec.opacity = .ok alpha)
    (channel : Channel) :
    ∃ listed a,
      ColorsCategories features data rows values listed colors channel spec name column alpha a := by
  obtain ⟨listed, hlisted, hany⟩ := Domain.exists_ofData hdata hvalues hcategories
  have hmade := hspec.forColor_eq hpalette halpha hdata (hany data rows hdata (.refl rows)) channel
  have hall : ∀ entry ∈ listed, entry.isCategory = true := fun entry hentry =>
    hcategories entry ((hlisted.mem_iff entry).mp hentry).1
  refine ⟨listed, _,
    { domain := fun kind hkind => ?_
      ordered := hlisted
      made := hmade
      listed_color := fun i value shade color hvalue hshade hcolor => ?_
      other_color := fun value hvalue hnot => ?_
      calls := fun calls hcalls => ?_
      reordered := fun data' rows' hdata' hperm => ⟨fun kind hkind => ?_, ?_⟩ }⟩
  · rw [ofKind_of_categorical hkind]
    exact hany data rows hdata (.refl rows)
  · have hnull : value ≠ .null := ((hlisted.mem_iff value).mp (List.mem_of_getElem? hvalue)).2
    have hpresent : value.isNull = false := by cases value <;> simp_all [Json.isNull]
    rw [scaled, Scale.value_of_listed hall hlisted.nodup hvalue hshade, Except.bind,
      colorOfShade_eq hcolor, hpresent]
    rfl
  · rw [scaled, Scale.value_of_unlisted hall hvalue hnot, Except.bind,
      colorOfShade_eq ofJson_unknownColor]
  · have hreads : ReadsColumn name .null data _ := .color hspec.named hspec.aggregation hmade
    obtain rfl : Row.isFeatureData data = features := hdata.isFeatureData_eq
    exact outcomes_of_has hreads hcalls
  · rw [ofKind_of_categorical hkind]
    exact hany data' rows' hdata' hperm
  · exact hspec.forColor_eq hpalette halpha hdata' (hany data' rows' hdata' hperm) channel

def mixedRows : List Json :=
  [.object [("n", .int 2)], .object [("n", .text "b")], .object [("n", .null)],
    .object [("n", .text "b")]]

def redOrdinal : ColorSpec where
  field := .object [("name", .text "n")]
  scale := .text "ordinal"
  aggregation := .null
  colorRange := .object [("colors", .list [.text "#ff0000"])]
  opacity := .null

theorem colors_by_frequency_mixed : ∃ a,
    ColorsCategories false (.list mixedRows) mixedRows [.int 2, .text "b", .null, .text "b"]
      [.text "b", .int 2] [.text "#ff0000"] .fillColor redOrdinal "n" "n" 255 a ∧
    a.scaled (.text "b") = .ok (Color.toJson ⟨255, 0, 0, 255⟩) ∧
    a.scaled (.int 2) = .ok (Color.toJson ⟨134, 141, 145, 255⟩) ∧
    a.scaled .null = .ok (Color.toJson ⟨134, 141, 145, 0⟩) := by
  have hspec : IsOrdinal redOrdinal "n" "n" := ⟨rfl, ⟨.null, rfl, rfl⟩, rfl, rfl⟩
  have hpalette : Palette redOrdinal.colorRange [.text "#ff0000"] :=
    ⟨.inr rfl, rfl, .inl rfl, by simpa using ⟨⟨255, 0, 0, 255⟩, rfl⟩⟩
  have hdata : Row.HoldsRows false (.list mixedRows) mixedRows := rfl
  have hvalues : Row.columnValues (.list mixedRows) (.text "n") =
      .ok [.int 2, .text "b", .null, .text "b"] := rfl
  obtain ⟨listed, a, h⟩ := colors_by_frequency hdata hvalues (by simp [Json.isCategory]) hspec hpalette
    (show Color.alphaOfOpacity redOrdinal.opacity = .ok 255 from rfl) .fillColor
  obtain rfl : [.text "b", .int 2] = listed := Except.ok.inj (h.domain .ordinal rfl)
  exact ⟨a, h, h.listed_color 0 (.text "b") (.text "#ff0000") ⟨255, 0, 0, 255⟩ rfl rfl rfl,
    h.other_color (.int 2) rfl (by simp), h.other_color .null rfl (by simp)⟩

end Accessor

end MapLayers
