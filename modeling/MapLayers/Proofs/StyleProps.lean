import MapLayers.Proofs.Results
import MapLayers.Proofs.Tables
import MapLayers.Proofs.Values
import MapLayers.Style

/-!
# What the style step writes

The tables of all layer types keep to one list of props, and each of their color props has a single
authored value. The style step adds the highlight and changes nothing but the colors: one that is a
list leaves the step with the opacity of its setting in the last place.
-/

namespace MapLayers

open PropTable (EntriesAdmit RuleAdmits entriesFind ruleAt? ruleAdmits_nested ruleAdmits_rename
  select)

namespace LayerType

/-- All props that tables write. -/
def tableProps : List String :=
  ["getFillColor", "visible", "cartoLabel", "getTextAlignmentBaseline", "getTextAnchor",
    "getTextColor", "getTextSize", "extruded", "elevationScale", "filled", "getLineColor",
    "stroked", "getLineWidth", "getPointRadius", "wireframe", "getIconColor", "getIconSize",
    "colorAggregation", "colorRange", "coverage", "elevationLowerPercentile",
    "elevationUpperPercentile", "lowerPercentile", "upperPercentile", "cellSize", "radius",
    "radiusPixels", "parameters"]

/-- A visual setting, where tables look for it. -/
def visSetting (config : Json.Fields) (key : String) : Json :=
  select (Json.fieldOf config "visConfig") (.field key)

theorem eq_visSetting_of_lookup {config : Json.Fields} {key : String} {value : Json}
    (h : (Layer.visOf config).lookup key = .ok value) : value = visSetting config key := by
  rw [Json.eq_fieldOf_of_lookup_orElse h, visSetting]
  cases Json.fieldOf config "visConfig" <;> rfl

/-- A setting of the first label, where tables look for it. -/
def labelSetting (config : Json.Fields) (key : String) : Json :=
  select (select (Json.fieldOf config "textLabel") (.position 0)) (.field key)

/-- What all tables keep to. -/
structure Tabled (config : Json.Fields) (prop : String) (value : Json) : Prop where
  known : prop ∈ tableProps
  fill : prop = "getFillColor" → value = Json.fieldOf config "color"
  line : prop = "getLineColor" → value = visSetting config "strokeColor"
  text : prop = "getTextColor" → value = labelSetting config "color"
  parameters : prop = "parameters" →
    ∃ flag, value = .object [("depthWriteEnabled", .bool flag)]

variable {config : Json.Fields} {value : Json}

theorem tabled_iff {prop : String} : Tabled config prop value ↔
    prop ∈ tableProps ∧
    (prop = "getFillColor" → value = Json.fieldOf config "color") ∧
    (prop = "getLineColor" → value = visSetting config "strokeColor") ∧
    (prop = "getTextColor" → value = labelSetting config "color") ∧
    (prop = "parameters" → ∃ flag, value = .object [("depthWriteEnabled", .bool flag)]) :=
  ⟨fun ⟨known, fill, line, text, parameters⟩ => ⟨known, fill, line, text, parameters⟩,
    fun ⟨known, fill, line, text, parameters⟩ => ⟨known, fill, line, text, parameters⟩⟩

theorem colorRange_admits : RuleAdmits (Tabled config) value (.transform colorRange) := by
  intro written h
  rw [colorRange, Result.bind_eq_ok_iff] at h
  obtain ⟨colors, -, h⟩ := h
  split at h <;>
  · simp only [Result.bind_eq_ok_iff, Result.pure_eq_ok_iff] at h
    obtain ⟨-, -, parsed, -, rfl⟩ := h
    simp [tabled_iff, tableProps]

theorem colorAggregation_admits :
    RuleAdmits (Tabled config) value (.transform colorAggregation) := by
  intro written h
  unfold colorAggregation at h
  split at h
  · simp at h
  · rw [← Except.ok.inj h]
    simp [tabled_iff, tableProps]

theorem inMeters_writes {prop : String} {written : Json.Fields}
    (h : inMeters prop value = .ok written) :
    ∃ meters, meters.isNull = false ∧ written = [(prop, meters)] := by
  unfold inMeters at h
  split at h
  · exact ⟨_, rfl, (Except.ok.inj h).symm⟩
  · exact ⟨_, rfl, (Except.ok.inj h).symm⟩
  · simp only [Result.bind_eq_ok_iff, Result.pure_eq_ok_iff] at h
    obtain ⟨-, -, product, -, -, rfl, rfl⟩ := h
    exact ⟨_, by cases product <;> rfl, rfl⟩

theorem inMeters_admits {prop : String} (hprop : prop = "cellSize" ∨ prop = "radius") :
    RuleAdmits (Tabled config) value (.transform (inMeters prop)) := by
  intro written h
  obtain ⟨meters, -, rfl⟩ := inMeters_writes h
  rcases hprop with rfl | rfl <;> simp [tabled_iff, tableProps]

theorem depthParameters_admits :
    RuleAdmits (Tabled config) value (.transform depthParameters) := by
  intro written h
  rw [← Except.ok.inj h]
  simp [tabled_iff, tableProps]

variable (config)

theorem sharedTable_admits : EntriesAdmit (Tabled config) (.object config) sharedTable := by
  simp [sharedTable, field, position, EntriesAdmit, ruleAdmits_rename, ruleAdmits_nested,
    tabled_iff, tableProps, select, labelSetting, visSetting]

theorem markerTable_admits : EntriesAdmit (Tabled config) (.object config) markerTable := by
  simp [markerTable, field, EntriesAdmit, ruleAdmits_rename, ruleAdmits_nested, tabled_iff,
    tableProps]

theorem cellTable_admits {prop : String} (hprop : prop = "cellSize" ∨ prop = "radius") :
    EntriesAdmit (Tabled config) (.object config) (cellTable prop) := by
  simp [cellTable, aggregationTable, field, position, EntriesAdmit, ruleAdmits_rename,
    ruleAdmits_nested, tabled_iff, tableProps, colorAggregation_admits, colorRange_admits,
    inMeters_admits hprop]

theorem ownTable_admits (type : LayerType) :
    EntriesAdmit (Tabled config) (.object config) type.ownTable := by
  cases type with
  | tileset | mvt | clusterTile => exact trivial
  | grid => exact cellTable_admits config (.inl rfl)
  | hexagon => exact cellTable_admits config (.inr rfl)
  | point | hexagonId | quadbin | heatmapTile =>
    simp [ownTable, coverageTable, field, EntriesAdmit, ruleAdmits_rename, ruleAdmits_nested,
      tabled_iff, tableProps, depthParameters_admits, colorRange_admits]

theorem table_admits (type : LayerType) (markers : Bool) :
    EntriesAdmit (Tabled config) (.object config) (type.table markers) := by
  unfold table
  refine PropTable.mergeEntries_admits ?_ (ownTable_admits config type)
  cases markers with
  | false => exact sharedTable_admits config
  | true =>
    exact PropTable.mergeEntries_admits (sharedTable_admits config) (markerTable_admits config)

theorem strokeRule (type : LayerType) (markers : Bool) :
    ruleAt? (type.table markers) [.field "visConfig", .field "strokeColor"] =
      some (.rename "getLineColor") := by
  cases type <;> cases markers <;> rfl

end LayerType

namespace Style

open LayerType (Tabled labelSetting tableProps visSetting)

/-- A color that has kept its first three channels and got the opacity of a setting as its last. -/
def HasOpacity (vis : Json) (setting : String) (color items : List Json) : Prop :=
  ∃ opacity alpha, vis.lookup setting = .ok opacity ∧ Color.alphaOfOpacity opacity = .ok alpha ∧
    items = color.take 3 ++ [.int alpha]

variable {vis : Json} {props next : Json.Fields}

/-- A step leaves every other prop alone, and what it leaves in its own as a list has its opacity. -/
theorem withOpacity_spec {entry : String × String} (h : withOpacity vis props entry = .ok next) :
    (∀ key, key ≠ entry.1 → Entries.get? next key = Entries.get? props key) ∧
    (∀ items, Json.fieldOf next entry.1 = .list items →
      ∃ color, Json.fieldOf props entry.1 = .list color ∧ HasOpacity vis entry.2 color items) := by
  unfold withOpacity at h
  split at h
  · next color hcolor =>
    simp only [Result.bind_eq_ok_iff, Result.pure_eq_ok_iff] at h
    obtain ⟨opacity, hopacity, alpha, halpha, rfl⟩ := h
    refine ⟨fun key hkey => Entries.get?_set_of_ne _ _ hkey.symm, fun items hitems => ?_⟩
    rw [Json.fieldOf_set_self, Json.list.injEq] at hitems
    exact ⟨color, hcolor, opacity, alpha, hopacity, halpha, hitems.symm⟩
  · next hother =>
    rw [← Except.ok.inj h]
    exact ⟨fun _ _ => rfl, fun items hitems => absurd hitems (hother items)⟩

theorem withOpacity_distinct {entry : String × String} (h : withOpacity vis props entry = .ok next)
    (hprops : props.Distinct) : next.Distinct := by
  unfold withOpacity at h
  split at h
  · simp only [Result.bind_eq_ok_iff, Result.pure_eq_ok_iff] at h
    obtain ⟨opacity, -, alpha, -, rfl⟩ := h
    exact hprops.set _ _
  · rw [← Except.ok.inj h]
    exact hprops

/-- A run over settings of different props gives each of them its own opacity. -/
theorem foldlM_withOpacity_spec {settings : List (String × String)}
    (hnodup : (settings.map Prod.fst).Nodup)
    (h : settings.foldlM (withOpacity vis) props = .ok next) :
    (∀ key, key ∉ settings.map Prod.fst → Entries.get? next key = Entries.get? props key) ∧
    (∀ entry ∈ settings, ∀ items, Json.fieldOf next entry.1 = .list items →
      ∃ color, Json.fieldOf props entry.1 = .list color ∧
        HasOpacity vis entry.2 color items) := by
  induction settings generalizing props with
  | nil =>
    rw [List.foldlM_nil, Result.pure_eq_ok_iff] at h
    subst h
    exact ⟨fun _ _ => rfl, fun entry hentry => by simp at hentry⟩
  | cons first rest ih =>
    rw [List.foldlM_cons, Result.bind_eq_ok_iff] at h
    obtain ⟨middle, hfirst, hrest⟩ := h
    rw [List.map_cons, List.nodup_cons] at hnodup
    obtain ⟨hkeep, hcolor⟩ := withOpacity_spec hfirst
    obtain ⟨hkeepRest, hcolorRest⟩ := ih hnodup.2 hrest
    constructor
    · intro key hkey
      simp only [List.map_cons, List.mem_cons, not_or] at hkey
      rw [hkeepRest key hkey.2, hkeep key hkey.1]
    · intro entry hentry items hitems
      rcases List.mem_cons.mp hentry with rfl | hentry
      · rw [Json.fieldOf, hkeepRest _ hnodup.1] at hitems
        exact hcolor items hitems
      · have hne : entry.1 ≠ first.1 := by
          intro heq
          exact hnodup.1 (heq ▸ List.mem_map_of_mem hentry)
        obtain ⟨color, hfound, hopacity⟩ := hcolorRest entry hentry items hitems
        rw [Json.fieldOf, hkeep _ hne] at hfound
        exact ⟨color, hfound, hopacity⟩

theorem withOpacities_distinct (h : withOpacities vis props = .ok next) (hprops : props.Distinct) :
    next.Distinct :=
  Result.foldlM_induction (motive := Entries.Distinct)
    (fun _ _ _ _ hstep hbefore => withOpacity_distinct hstep hbefore) hprops h

variable {config style : Json.Fields} {table : PropTable} {type : LayerType} {markers : Bool}

/-- The authored color of a color prop. A layer with strokes but without a stroke color takes that of
its filling. -/
def authoredColor (config : Json.Fields) (stroked : Json) : String → Json
  | "getFillColor" => Json.fieldOf config "color"
  | "getLineColor" =>
    let own := visSetting config "strokeColor"
    if stroked.truthy && !own.truthy then Json.fieldOf config "color" else own
  | "getTextColor" => labelSetting config "color"
  | _ => .null

/-- The props that the table alone gives. -/
def tabled (config : Json.Fields) (table : PropTable) : Json.Fields :=
  (table.apply (.object config) []).props

theorem props_inv (h : Style.props config table = .ok style) :
    (table.apply (.object config) []).fault = none ∧
    ∃ colored raised,
      withOpacities (Layer.visOf config) (withStroke (tabled config table)) = .ok colored ∧
      (Layer.visOf config).lookup "enable3d" = .ok raised ∧
      style = Entries.set colored "highlightColor"
        (if raised.truthy then raisedHighlight else flatHighlight) := by
  unfold Style.props at h
  dsimp only at h
  split at h
  · simp at h
  · next hfault =>
    simp only [Result.bind_eq_ok_iff, Result.pure_eq_ok_iff] at h
    obtain ⟨colored, hcolored, raised, hraised, rfl⟩ := h
    exact ⟨Option.eq_none_iff_forall_ne_some.mpr hfault, colored, raised, hcolored, hraised, rfl⟩

theorem tabled_distinct : (tabled config table).Distinct :=
  PropTable.applyEntries_distinct Entries.Distinct.nil

theorem withStroke_distinct (h : props.Distinct) : (withStroke props).Distinct := by
  unfold withStroke
  split
  · exact h.set _ _
  · exact h

theorem props_distinct (h : Style.props config table = .ok style) : style.Distinct := by
  obtain ⟨-, colored, raised, hcolored, -, rfl⟩ := props_inv h
  exact (withOpacities_distinct hcolored (withStroke_distinct tabled_distinct)).set _ _

theorem withStroke_get? {key : String} (hkey : key ≠ "getLineColor") :
    Entries.get? (withStroke props) key = Entries.get? props key := by
  unfold withStroke
  split
  · exact Entries.get?_set_of_ne _ _ hkey.symm
  · rfl

/-- Colors and the highlight apart, a prop is what the table makes it. -/
theorem props_get? (h : Style.props config table = .ok style) {key : String}
    (hkey : key ∉ "highlightColor" :: opacitySettings.map Prod.fst) :
    Entries.get? style key = Entries.get? (tabled config table) key := by
  obtain ⟨-, colored, raised, hcolored, -, rfl⟩ := props_inv h
  obtain ⟨hkeep, -⟩ := foldlM_withOpacity_spec (by decide) hcolored
  have hline : key ≠ "getLineColor" := by
    rintro rfl
    exact hkey (by decide)
  rw [List.mem_cons, not_or] at hkey
  rw [Entries.get?_set_of_ne _ _ (Ne.symm hkey.1), hkeep key hkey.2, withStroke_get? hline]

theorem tabled_of_get? (h : Style.props config (type.table markers) = .ok style) {key : String}
    {value : Json} (hfound : Entries.get? (tabled config (type.table markers)) key = some value) :
    Tabled config key value := by
  rw [tabled, PropTable.apply, PropTable.applyEntries_get? (props_inv h).1,
    Entries.get?_nil, Option.or_none] at hfound
  exact PropTable.admits_of_entriesFind hfound (LayerType.table_admits config type markers)

theorem tabled_of_list (h : Style.props config (type.table markers) = .ok style) {key : String}
    {items : List Json}
    (hitems : Json.fieldOf (tabled config (type.table markers)) key = .list items) :
    Tabled config key (.list items) := by
  cases hfound : Entries.get? (tabled config (type.table markers)) key with
  | none => simp [Json.fieldOf, hfound] at hitems
  | some value =>
    have hvalue : value = .list items := by rw [← hitems, Json.fieldOf, hfound]; rfl
    exact hvalue ▸ tabled_of_get? h hfound

/-- The stroke color of a table is the authored one, there or not. -/
theorem tabled_line (h : Style.props config (type.table markers) = .ok style) :
    Json.fieldOf (tabled config (type.table markers)) "getLineColor" =
      visSetting config "strokeColor" := by
  cases hfound : Entries.get? (tabled config (type.table markers)) "getLineColor" with
  | some value => rw [← (tabled_of_get? h hfound).line rfl, Json.fieldOf, hfound]; rfl
  | none =>
    rw [Json.fieldOf, hfound]
    rw [tabled, PropTable.apply, PropTable.applyEntries_get? (props_inv h).1,
      Entries.get?_nil, Option.or_none] at hfound
    cases hown : visSetting config "strokeColor" with
    | null => rfl
    | _ =>
      refine absurd hfound (PropTable.entriesFind_of_ruleAt? (LayerType.strokeRule type markers) ?_)
      show (visSetting config "strokeColor").isNull = false
      rw [hown]
      rfl

/-- A color prop of the style step that is a list is the authored color with its opacity. -/
theorem props_color (h : Style.props config (type.table markers) = .ok style) {key setting : String}
    (hkey : (key, setting) ∈ opacitySettings) {items : List Json}
    (hitems : Json.fieldOf style key = .list items) :
    ∃ color, authoredColor config (Json.fieldOf style "stroked") key = .list color ∧
      HasOpacity (Layer.visOf config) setting color items := by
  have hstroked : Json.fieldOf style "stroked" =
      Json.fieldOf (tabled config (type.table markers)) "stroked" := by
    rw [Json.fieldOf, props_get? h (by decide), Json.fieldOf]
  obtain ⟨-, colored, raised, hcolored, -, rfl⟩ := props_inv h
  have hne : "highlightColor" ≠ key := by
    rintro rfl
    simp [opacitySettings] at hkey
  rw [Json.fieldOf_set_of_ne _ _ hne] at hitems
  obtain ⟨color, hcolor, hopacity⟩ :=
    (foldlM_withOpacity_spec (by decide) hcolored).2 (key, setting) hkey items hitems
  refine ⟨color, ?_, hopacity⟩
  rw [hstroked]
  simp only [opacitySettings, List.mem_cons, Prod.mk.injEq, List.not_mem_nil, or_false] at hkey
  rcases hkey with ⟨rfl, -⟩ | ⟨rfl, -⟩ | ⟨rfl, -⟩
  · rw [Json.fieldOf, withStroke_get? (by simp)] at hcolor
    exact ((tabled_of_list h hcolor).fill rfl).symm
  · have hline := tabled_line h
    unfold withStroke at hcolor
    rw [hline] at hcolor
    unfold authoredColor
    dsimp only
    split at hcolor
    · next hfallback =>
      rw [if_pos hfallback]
      rw [Json.fieldOf_set_self] at hcolor
      exact ((tabled_of_list h hcolor).fill rfl).symm
    · next hown =>
      rw [if_neg hown, ← hline]
      exact hcolor
  · rw [Json.fieldOf, withStroke_get? (by simp)] at hcolor
    exact ((tabled_of_list h hcolor).text rfl).symm

end Style

end MapLayers
