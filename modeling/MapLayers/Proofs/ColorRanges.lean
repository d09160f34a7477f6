import MapLayers.Proofs.BaseProps
import MapLayers.Proofs.ByteColors

/-!
# Color ranges of compiled layers

The color range of a compiled layer lists the channels of the authored colors, in their order. It is a list
of byte colors exactly if none of the authored colors overshoots.
-/

namespace MapLayers

open PropTable (EntriesAdmit RuleAdmits ruleAdmits_nested ruleAdmits_rename select)

namespace LayerType

/-- A color range that is written is that of the visual settings. -/
def Ranged (config : Json.Fields) (prop : String) (value : Json) : Prop :=
  prop = "colorRange" → colorRange (visSetting config "colorRange") = .ok [("colorRange", value)]

variable {config : Json.Fields} {value : Json} {written : Json.Fields}

theorem colorRange_inv (h : colorRange value = .ok written) :
    ∃ authored colors parsed, value.lookup "colors" = .ok authored ∧
      (if authored.truthy then authored.elements else pure []) = .ok colors ∧
      colors.mapM Color.ofJson = .ok parsed ∧
      written = [("colorRange", .list (parsed.map Color.toJson))] := by
  rw [colorRange, Result.bind_eq_ok_iff] at h
  obtain ⟨authored, hauthored, h⟩ := h
  refine ⟨authored, ?_⟩
  split at h
  · next htruthy =>
    simp only [Result.bind_eq_ok_iff, Result.pure_eq_ok_iff] at h
    obtain ⟨colors, hcolors, parsed, hparsed, rfl⟩ := h
    exact ⟨colors, parsed, hauthored, by rw [if_pos htruthy, hcolors], hparsed, rfl⟩
  · next hfalsy =>
    simp only [Result.bind_eq_ok_iff, Result.pure_eq_ok_iff] at h
    obtain ⟨colors, rfl, parsed, hparsed, rfl⟩ := h
    exact ⟨[], parsed, hauthored, by rw [if_neg hfalsy]; rfl, hparsed, rfl⟩

theorem colorRange_ranged :
    RuleAdmits (Ranged config) (visSetting config "colorRange") (.transform colorRange) := by
  intro written h entry hentry hprop
  obtain ⟨authored, colors, parsed, -, -, -, rfl⟩ := colorRange_inv h
  rw [List.mem_singleton.mp hentry]
  exact h

theorem colorAggregation_ranged :
    RuleAdmits (Ranged config) value (.transform colorAggregation) := by
  intro written h
  unfold colorAggregation at h
  split at h
  · simp at h
  · rw [← Except.ok.inj h]
    simp [Ranged]

theorem inMeters_ranged {prop : String} (hprop : prop ≠ "colorRange") :
    RuleAdmits (Ranged config) value (.transform (inMeters prop)) := by
  intro written h
  obtain ⟨meters, -, rfl⟩ := inMeters_writes h
  simp [Ranged, hprop]

theorem depthParameters_ranged :
    RuleAdmits (Ranged config) value (.transform depthParameters) := by
  intro written h
  rw [← Except.ok.inj h]
  simp [Ranged]

variable (config)

theorem cellTable_ranged {prop : String} (hprop : prop ≠ "colorRange") :
    EntriesAdmit (Ranged config) (.object config) (cellTable prop) := by
  refine ⟨fun _ => ?_, trivial⟩
  change EntriesAdmit (Ranged config) (Json.fieldOf config "visConfig") _
  refine ⟨fun _ => colorAggregation_ranged, fun _ => colorRange_ranged, ?_⟩
  simp [field, position, EntriesAdmit, ruleAdmits_rename, ruleAdmits_nested, Ranged,
    inMeters_ranged hprop]

theorem ownTable_ranged (type : LayerType) :
    EntriesAdmit (Ranged config) (.object config) type.ownTable := by
  cases type with
  | tileset | mvt | clusterTile => exact trivial
  | grid => exact cellTable_ranged config (by decide)
  | hexagon => exact cellTable_ranged config (by decide)
  | point | hexagonId | quadbin =>
    simp [ownTable, coverageTable, field, EntriesAdmit, ruleAdmits_rename, ruleAdmits_nested,
      Ranged, depthParameters_ranged]
  | heatmapTile =>
    refine ⟨fun _ => ?_, trivial⟩
    change EntriesAdmit (Ranged config) (Json.fieldOf config "visConfig") _
    exact ⟨fun _ => colorRange_ranged, fun _ hprop => absurd hprop (by decide), trivial⟩

theorem table_ranged (type : LayerType) (markers : Bool) :
    EntriesAdmit (Ranged config) (.object config) (type.table markers) := by
  have hshared : EntriesAdmit (Ranged config) (.object config) sharedTable := by
    simp [sharedTable, field, position, EntriesAdmit, ruleAdmits_rename, ruleAdmits_nested, Ranged]
  have hmarkers : EntriesAdmit (Ranged config) (.object config) markerTable := by
    simp [markerTable, field, EntriesAdmit, ruleAdmits_rename, ruleAdmits_nested, Ranged]
  refine PropTable.mergeEntries_admits ?_ (ownTable_ranged config type)
  cases markers with
  | false => exact hshared
  | true => exact PropTable.mergeEntries_admits hshared hmarkers

end LayerType

open LayerType (visSetting)

theorem Style.colorRange_eq {config style : Json.Fields} {type : LayerType} {markers : Bool}
    {value : Json} (h : Style.props config (type.table markers) = .ok style)
    (hfound : Entries.get? style "colorRange" = some value) :
    LayerType.colorRange (visSetting config "colorRange") = .ok [("colorRange", value)] := by
  rw [Style.props_get? h (by decide), Style.tabled, PropTable.apply,
    PropTable.applyEntries_get? (Style.props_inv h).1, Entries.get?_nil, Option.or_none] at hfound
  exact PropTable.admits_of_entriesFind hfound (LayerType.table_ranged config type markers) rfl

theorem Origin.get?_colorRange {token : Json} {fields : Json.Fields} {entry : Json} {a : Assembly}
    {descriptor : LayerDescriptor} (h : Origin token fields entry a descriptor) :
    Entries.get? descriptor.props "colorRange" =
      (Entries.get? a.style "colorRange").map PropValue.ofJson := by
  obtain ⟨channels, hchannels, hprops⟩ := h.get?
  obtain ⟨type, markers, -, -, hfirst, hstyle⟩ := h.style
  rw [hprops, Assembly.lookup, Assembly.plain_get? (Blending.parametersField _),
    Blending.parametersField_get? _ (by decide), Channels.get?_eq_none hchannels (by decide),
    Assembly.plain_get? a.style, LayerType.firstProps_get? hfirst (by decide) (by decide)]
  generalize (Entries.get? a.style _).map PropValue.ofJson = styled
  cases styled <;> rfl

/-- A color range among some props lists the authored colors. Its entries are byte colors exactly if none
of these overshoots. -/
def RangeNormal (config : Json.Fields) (props : Props) : Prop :=
  ∀ written, Entries.get? props "colorRange" = some written →
    ∃ authored colors parsed, (visSetting config "colorRange").lookup "colors" = .ok authored ∧
      (if authored.truthy then authored.elements else pure []) = .ok colors ∧
      colors.mapM Color.ofJson = .ok parsed ∧
      written = .ofJson (.list (parsed.map Color.toJson)) ∧
      ((∀ c ∈ parsed, c.InBytes) ↔ ∀ color ∈ colors, ¬Color.Overshoots color)

theorem Origin.rangeNormal {token : Json} {fields : Json.Fields} {entry : Json} {a : Assembly}
    {descriptor : LayerDescriptor} (h : Origin token fields entry a descriptor) :
    RangeNormal a.layer.config descriptor.props := by
  intro written hwritten
  rw [h.get?_colorRange, Option.map_eq_some_iff] at hwritten
  obtain ⟨value, hvalue, rfl⟩ := hwritten
  obtain ⟨type, markers, -, -, -, hstyle⟩ := h.style
  obtain ⟨authored, colors, parsed, hauthored, hcolors, hparsed, hlist⟩ :=
    LayerType.colorRange_inv (Style.colorRange_eq hstyle hvalue)
  obtain rfl : value = _ := (Prod.mk.inj (List.cons.inj hlist).1).2
  refine ⟨authored, colors, parsed, hauthored, hcolors, hparsed, rfl, ?_⟩
  have heach : (∀ c ∈ parsed, c.InBytes) ↔
      ∀ color ∈ colors, ∃ c, Color.ofJson color = .ok c ∧ c.InBytes := by
    rw [← Result.exists_mapM_iff]
    refine ⟨fun hbytes => ⟨parsed, hparsed, hbytes⟩, ?_⟩
    rintro ⟨parsed', hparsed', hbytes⟩
    exact Except.ok.inj (hparsed.symm.trans hparsed') ▸ hbytes
  rw [heach]
  refine forall₂_congr fun color hcolor => ⟨?_, fun hwithin => ?_⟩
  · rintro ⟨c, hc, hbytes⟩
    exact (Color.inBytes_iff hc).mp hbytes
  · obtain ⟨c, hc, -⟩ := (Result.exists_mapM_iff (p := fun _ => True)).mp
      ⟨parsed, hparsed, fun _ _ => trivial⟩ color hcolor
    exact ⟨c, hc, (Color.inBytes_iff hc).mpr hwithin⟩

namespace Accessor

/-- The calls of a color accessor give byte colors, each of them read back as it is, as far as none of the
colors that they can take overshoots. -/
def CallsNormal (spec : ColorSpec) (data : Json) (a : Accessor) : Prop :=
  ∃ reader name scale alpha, a = .color reader scale alpha (Row.isFeatureData data) ∧
    colorScale name (spec.scale.orElse defaultColorScale) spec.colorRange data = .ok scale ∧
    ∀ row more kept result kept', a.call (row :: more) kept = (.ok result, kept') →
      (∀ color, Source reader scale (Row.isFeatureData data) row color → ¬Color.Overshoots color) →
      ∃ c : Color, result = c.toJson ∧ c.InBytes ∧ Color.ofJson result = .ok c

theorem forColor_callsNormal {channel : Channel} {spec : ColorSpec} {data : Json} {a : Accessor}
    (h : forColor channel spec data = .ok a) : CallsNormal spec data a := by
  obtain ⟨name, column, scale, alpha, reader, -, -, hscale, halpha, rfl⟩ := forColor_inv h
  refine ⟨reader, _, scale, alpha, rfl, hscale, fun row more kept result kept' hcall hsources => ?_⟩
  obtain ⟨info, hcall⟩ : ∃ info, (color reader scale alpha (Row.isFeatureData data)).callWith row info kept =
      (.ok result, kept') := by
    unfold call at hcall
    split at hcall
    · next hargs => exact ⟨none, (List.cons.inj hargs).1 ▸ hcall⟩
    · next info hargs => exact ⟨some info, (List.cons.inj hargs).1 ▸ hcall⟩
    · simp at hcall
  obtain ⟨c, rfl, hbytes⟩ := color_call_inBytes (Color.alphaOfOpacity_isByte halpha)
    (colorScale_unknown hscale) hsources hcall
  exact ⟨c, rfl, hbytes, (Color.ofJson_toJson_iff c).mpr hbytes⟩

end Accessor

/-- A color is read as bytes, which are read back as they are, exactly if no channel of its text leaves the
bytes, and that takes an amount beyond those that the text's form provides for. So are the colors of color
ranges and, as far as they come from such colors, those of color accessors. -/
theorem colors_normal_iff (value token : Json) (fields : Json.Fields) (channel : Channel)
    (spec : Accessor.ColorSpec) (data : Json) :
    (∀ c, Color.ofJson value = .ok c →
      (c.InBytes ∧ Color.ofJson c.toJson = .ok c ↔ ¬Color.Overshoots value)) ∧
    (Color.Overshoots value → Color.Exceeds value) ∧
    (∀ whole, CompiledMap.ofFields token fields = .ok whole →
      ∀ descriptor ∈ whole.map.layers, (∃ entry a, Origin token fields entry a descriptor) ∧
        ∀ entry a, Origin token fields entry a descriptor →
          RangeNormal a.layer.config descriptor.props) ∧
    (∀ a, Accessor.forColor channel spec data = .ok a → Accessor.CallsNormal spec data a) := by
  refine ⟨fun c h => ?_, fun h => h.exceeds, fun whole h descriptor hmem =>
    ⟨CompiledMap.exists_origin h hmem, fun entry a horigin => horigin.rangeNormal⟩,
    fun a h => Accessor.forColor_callsNormal h⟩
  rw [Color.ofJson_toJson_iff, and_self, Color.inBytes_iff h]

/-- A layer with a color range of two texts. -/
def rangedDocument : Json.Fields :=
  [("datasets", .list [.object [("id", .text "d"), ("data", .list [])]]),
    ("keplerMapConfig", .object [("version", .text "v1"), ("config", .object [("visState", .object
      [("layers", .list [.object [("id", .text "a"), ("type", .text "heatmapTile"),
        ("config", .object [("dataId", .text "d"), ("visConfig", .object [("colorRange", .object
          [("colors", .list [.text "#ff8000", .text "rgb(300, 0, 0)"])])])])]])])])])]

/-- A category with its color. -/
def categorySpec : Accessor.ColorSpec where
  field := .object [("name", .text "n")]
  scale := .text "ordinal"
  aggregation := .null
  colorRange := .object [("colorMap", .list [.list [.text "a", .text "#ff8000"]])]
  opacity := .null

theorem colors_normal_iff_ranged :
    (∃ c, Color.ofJson (.text "#ff8000") = .ok c ∧ c.InBytes ∧ Color.ofJson c.toJson = .ok c) ∧
    (∃ whole descriptor entry a written, CompiledMap.ofFields .null rangedDocument = .ok whole ∧
      descriptor ∈ whole.map.layers ∧ Origin .null rangedDocument entry a descriptor ∧
      Entries.get? descriptor.props "colorRange" = some written ∧
      RangeNormal a.layer.config descriptor.props) ∧
    ∃ a result kept, Accessor.forColor .fillColor categorySpec .null = .ok a ∧
      a.call [.object [("n", .text "a")]] Kept.nothing = (.ok result, kept) ∧
      Accessor.CallsNormal categorySpec .null a := by
  obtain ⟨hvalue, -, hranges, haccessors⟩ :=
    colors_normal_iff (.text "#ff8000") .null rangedDocument .fillColor categorySpec .null
  refine ⟨?_, ?_, ?_⟩
  · have hcolor : Color.ofJson (.text "#ff8000") = .ok ⟨255, 128, 0, 255⟩ := rfl
    refine ⟨_, hcolor, (hvalue _ hcolor).mpr ?_⟩
    rintro ⟨s, spec, htext, hread, hover⟩
    obtain rfl := Json.text.inj htext
    have hliteral : Color.Specifier.read? (Text.lower (Text.trim "#ff8000")).toList =
        some (.literal ⟨255, 128, 0, 255⟩) := rfl
    rw [← Option.some.inj (hliteral.symm.trans hread)] at hover
    exact hover
  · obtain ⟨whole, descriptor, written, hwhole, hmem, hwritten⟩ : ∃ whole descriptor written,
        CompiledMap.ofFields .null rangedDocument = .ok whole ∧ descriptor ∈ whole.map.layers ∧
        Entries.get? descriptor.props "colorRange" = some written :=
      ⟨_, _, _, rfl, List.Mem.head _, rfl⟩
    obtain ⟨⟨entry, a, horigin⟩, hnormal⟩ := hranges _ hwhole descriptor hmem
    exact ⟨whole, descriptor, entry, a, written, hwhole, hmem, horigin, hwritten,
      hnormal entry a horigin⟩
  · obtain ⟨a, result, kept, haccessor, hcall⟩ : ∃ a result kept,
        Accessor.forColor .fillColor categorySpec .null = .ok a ∧
        a.call [.object [("n", .text "a")]] Kept.nothing = (.ok result, kept) :=
      ⟨_, _, _, rfl, rfl⟩
    exact ⟨a, result, kept, haccessor, hcall, haccessors a haccessor⟩

/-- A number above the bytes stays, and is brought into range when the color is read again. -/
theorem number_beyond_bytes :
    Color.ofJson (.text "rgb(300, 0, 0)") = .ok ⟨300, 0, 0, 255⟩ ∧
    ¬Color.InBytes ⟨300, 0, 0, 255⟩ ∧
    Color.ofJson (Color.toJson ⟨300, 0, 0, 255⟩) = .ok ⟨255, 0, 0, 255⟩ := by
  refine ⟨rfl, fun h => absurd h.red.2 (by decide), ?_⟩
  have hchannels : Color.channel (.int 300) = .ok 255 ∧ Color.channel (.int 0) = .ok 0 ∧
      Color.channel (.int 255) = .ok 255 :=
    ⟨Color.channel_int (by decide), Color.channel_int (by decide), Color.channel_int (by decide)⟩
  simp only [Color.ofJson, Color.toJson, hchannels, Result.ok_bind]
  rfl

end MapLayers
