import MapLayers.Proofs.BaseProps

/-!
# Opacity of compiled layers

The style step gives every color prop that is a list the opacity of its setting. Colors of the geometry
keep it, since channels set them to accessors only. The text color loses it exactly where the first
label is drawn: there the channels set the authored color again, as it is.
-/

namespace MapLayers

namespace PropValue

mutual

theorem ofJson_injective {a b : Json} (h : ofJson a = ofJson b) : a = b := by
  cases a with
  | list items =>
    cases b with
    | list others => exact congrArg Json.list (ofItems_injective (list.inj h))
    | _ => simp [ofJson] at h
  | object fields =>
    cases b with
    | object others => exact congrArg Json.object (ofFields_injective (record.inj h))
    | _ => simp [ofJson] at h
  | _ => cases b <;> simp_all [ofJson]

theorem ofItems_injective {a b : List Json} (h : ofItems a = ofItems b) : a = b := by
  cases a with
  | nil =>
    cases b with
    | nil => rfl
    | cons other others => simp [ofItems] at h
  | cons item rest =>
    cases b with
    | nil => simp [ofItems] at h
    | cons other others =>
      rw [ofItems, ofItems, List.cons.injEq] at h
      rw [ofJson_injective h.1, ofItems_injective h.2]

theorem ofFields_injective {a b : List (String × Json)} (h : ofFields a = ofFields b) : a = b := by
  cases a with
  | nil =>
    cases b with
    | nil => rfl
    | cons other others => simp [ofFields] at h
  | cons entry rest =>
    cases b with
    | nil => simp [ofFields] at h
    | cons other others =>
      obtain ⟨key, value⟩ := entry
      obtain ⟨otherKey, otherValue⟩ := other
      rw [ofFields, ofFields, List.cons.injEq, Prod.mk.injEq, PropKey.field.injEq] at h
      rw [h.1.1, ofJson_injective h.1.2, ofFields_injective h.2]

end

end PropValue

open Channels (DrawsLabel)
open LayerType (labelSetting)
open Style (HasOpacity authoredColor opacitySettings)

/-- A list that comes from the authored color of a prop; if that has three channels at least, the list
is the color with the opacity of its setting. -/
def IsFaded (a : Assembly) (key setting : String) (values : List PropValue) : Prop :=
  ∃ color, authoredColor a.layer.config (Json.fieldOf a.style "stroked") key = .list color ∧
    (3 ≤ color.length → ∃ items, HasOpacity a.layer.visConfig setting color items ∧
      PropValue.list values = .ofJson (.list items))

/-- Every color prop that is a list has the opacity of its setting. -/
def OpacityReaches (a : Assembly) (props : Props) : Prop :=
  ∀ key setting values, (key, setting) ∈ opacitySettings →
    Entries.get? props key = some (.list values) → IsFaded a key setting values

/-- The first label is drawn in a color that does not have the opacity of the layer already. -/
def LabelOverrides (layer : Layer) : Prop :=
  DrawsLabel layer ∧ ∃ color, labelSetting layer.config "color" = .list color ∧
    3 ≤ color.length ∧ ¬HasOpacity layer.visConfig "opacity" color color

theorem plainProps_of_color {key setting : String} (hkey : (key, setting) ∈ opacitySettings) :
    key ∉ Channels.plainProps := by
  simp only [opacitySettings, List.mem_cons, Prod.mk.injEq, List.not_mem_nil, or_false] at hkey
  rcases hkey with ⟨rfl, -⟩ | ⟨rfl, -⟩ | ⟨rfl, -⟩ <;> decide

namespace Origin

variable {token : Json} {fields : Json.Fields} {entry : Json} {a : Assembly}
  {descriptor : LayerDescriptor}

theorem get?_color (h : Origin token fields entry a descriptor) :
    ∃ channels, Channels.resolve ⟨a.layer, a.dataset, a.style⟩ = .ok channels ∧
      ∀ key setting, (key, setting) ∈ opacitySettings →
        Entries.get? descriptor.props key =
          (Entries.get? channels key).or ((Entries.get? a.style key).map .ofJson) := by
  obtain ⟨channels, hchannels, hprops⟩ := h.get?
  obtain ⟨type, markers, -, -, hfirst, hstyle⟩ := h.style
  refine ⟨channels, hchannels, fun key setting hkey => ?_⟩
  simp only [opacitySettings, List.mem_cons, Prod.mk.injEq, List.not_mem_nil, or_false] at hkey
  rcases hkey with ⟨rfl, -⟩ | ⟨rfl, -⟩ | ⟨rfl, -⟩ <;>
  · rw [hprops, Assembly.lookup, Assembly.plain_get? (Blending.parametersField _),
      Blending.parametersField_get? _ (by decide), Assembly.plain_get? a.style,
      LayerType.firstProps_get? hfirst (by decide) (by decide)]
    generalize Entries.get? channels _ = resolved
    generalize (Entries.get? a.style _).map PropValue.ofJson = styled
    cases resolved <;> cases styled <;> rfl

theorem isFaded_of_style (h : Origin token fields entry a descriptor) {key setting : String}
    (hkey : (key, setting) ∈ opacitySettings) {values : List PropValue}
    (hfound : (Entries.get? a.style key).map PropValue.ofJson = some (.list values)) :
    IsFaded a key setting values := by
  obtain ⟨type, markers, -, -, -, hstyle⟩ := h.style
  obtain ⟨value, hvalue, hlist⟩ := Option.map_eq_some_iff.mp hfound
  cases value with
  | list items =>
    have hitems : Json.fieldOf a.style key = .list items := by
      rw [Json.fieldOf, hvalue]
      rfl
    obtain ⟨color, hauthored, hopacity⟩ := Style.props_color hstyle hkey hitems
    exact ⟨color, hauthored, fun _ => ⟨items, hopacity, hlist.symm⟩⟩
  | _ => simp [PropValue.ofJson] at hlist

theorem isFaded_of_channels (hlabel : ¬LabelOverrides a.layer) {key setting : String}
    (hkey : (key, setting) ∈ opacitySettings) {values : List PropValue}
    (hwritten : Channels.Written a.layer key (.list values)) : IsFaded a key setting values := by
  obtain ⟨rfl, hdraws, hvalues⟩ := hwritten.of_list (plainProps_of_color hkey)
  obtain rfl : setting = "opacity" := by simpa [opacitySettings] using hkey
  cases hauthored : labelSetting a.layer.config "color" with
  | list color =>
    rw [hauthored] at hvalues
    refine ⟨color, hauthored, fun hlength => ?_⟩
    by_cases hopacity : HasOpacity a.layer.visConfig "opacity" color color
    · exact ⟨color, hopacity, hvalues⟩
    · exact absurd ⟨hdraws, color, hauthored, hlength, hopacity⟩ hlabel
  | _ => simp [hauthored, PropValue.ofJson] at hvalues

theorem not_labelOverrides (h : Origin token fields entry a descriptor)
    (hreaches : OpacityReaches a descriptor.props) : ¬LabelOverrides a.layer := by
  rintro ⟨hdraws, color, hcolor, hlength, hraw⟩
  obtain ⟨channels, hchannels, hprops⟩ := h.get?_color
  have htext : Entries.get? channels "getTextColor" = some (.ofJson (.list color)) := by
    rw [← hcolor]
    exact Channels.resolve_text hchannels hdraws (by rw [hcolor]; rfl)
  have hfinal : Entries.get? descriptor.props "getTextColor" = some (.ofJson (.list color)) := by
    rw [hprops "getTextColor" "opacity" (by simp [opacitySettings]), htext]
    rfl
  obtain ⟨authored, hauthored, hfaded⟩ := hreaches "getTextColor" "opacity" _
    (by simp [opacitySettings]) hfinal
  obtain rfl : color = authored := Json.list.inj (hcolor.symm.trans hauthored)
  obtain ⟨items, hopacity, hitems⟩ := hfaded hlength
  have hsame : color = items := Json.list.inj (PropValue.ofJson_injective hitems)
  exact hraw (hsame ▸ hopacity)

theorem opacityReaches (h : Origin token fields entry a descriptor)
    (hlabel : ¬LabelOverrides a.layer) : OpacityReaches a descriptor.props := by
  intro key setting values hkey hfound
  obtain ⟨channels, hchannels, hprops⟩ := h.get?_color
  rw [hprops key setting hkey, Option.or_eq_some_iff] at hfound
  rcases hfound with hresolved | ⟨-, hstyled⟩
  · exact isFaded_of_channels hlabel hkey
      ((Channels.resolve_reaches hchannels).admits_of_get? hresolved)
  · exact h.isFaded_of_style hkey hstyled

end Origin

namespace CompiledMap

/-- Opacity reaches every compiled layer but those whose first label is drawn in a color of its own. -/
theorem opacity_reaches_iff {token : Json} {fields : Json.Fields} {whole : Compilation}
    (h : ofFields token fields = .ok whole) {descriptor : LayerDescriptor}
    (hmem : descriptor ∈ whole.map.layers) :
    (∃ entry a, Origin token fields entry a descriptor) ∧
    ∀ entry a, Origin token fields entry a descriptor →
      (OpacityReaches a descriptor.props ↔ ¬LabelOverrides a.layer) :=
  ⟨exists_origin h hmem, fun _ _ horigin =>
    ⟨horigin.not_labelOverrides, horigin.opacityReaches⟩⟩

/-- A document with a layer that has a label in a color of its own. -/
def labelledDocument : Json.Fields :=
  [("datasets", .list [.object [("id", .text "d"), ("data", .list [])]]),
    ("keplerMapConfig", .object [("version", .text "v1"), ("config", .object [("visState", .object
      [("layers", .list [.object [("id", .text "a"), ("type", .text "mvt"),
        ("config", .object [("dataId", .text "d"),
          ("textLabel", .list [.object [("field", .object [("name", .text "n")]),
            ("color", .list [.int 1, .int 2, .int 3])]])])]])])])])]

theorem opacity_reaches_labelled : ∃ whole descriptor,
    ofFields .null labelledDocument = .ok whole ∧ descriptor ∈ whole.map.layers ∧
    (∃ entry a, Origin .null labelledDocument entry a descriptor) ∧
    ∀ entry a, Origin .null labelledDocument entry a descriptor →
      (OpacityReaches a descriptor.props ↔ ¬LabelOverrides a.layer) := by
  obtain ⟨whole, descriptor, hwhole, hmem⟩ : ∃ whole descriptor,
      ofFields .null labelledDocument = .ok whole ∧ descriptor ∈ whole.map.layers :=
    ⟨_, _, rfl, List.Mem.head _⟩
  exact ⟨whole, descriptor, hwhole, hmem, opacity_reaches_iff hwhole hmem⟩

/-- The label keeps the three channels that were authored, and no opacity comes after them. -/
theorem label_without_opacity : ∃ whole descriptor entry a,
    ofFields .null labelledDocument = .ok whole ∧ descriptor ∈ whole.map.layers ∧
    Origin .null labelledDocument entry a descriptor ∧
    Entries.get? descriptor.props "getTextColor" = some (.list [.int 1, .int 2, .int 3]) ∧
    ¬OpacityReaches a descriptor.props := by
  obtain ⟨whole, descriptor, hwhole, hmem, htext⟩ : ∃ whole descriptor,
      ofFields .null labelledDocument = .ok whole ∧ descriptor ∈ whole.map.layers ∧
      Entries.get? descriptor.props "getTextColor" = some (.list [.int 1, .int 2, .int 3]) :=
    ⟨_, _, rfl, List.Mem.head _, rfl⟩
  obtain ⟨entry, a, horigin⟩ := exists_origin hwhole hmem
  refine ⟨whole, descriptor, entry, a, hwhole, hmem, horigin, htext, fun hreaches => ?_⟩
  have hcolor : labelSetting a.layer.config "color" = .list [.int 1, .int 2, .int 3] := by
    have hlayer := horigin.layer
    rw [List.mem_singleton.mp horigin.listed] at hlayer
    generalize a.layer = layer at hlayer ⊢
    cases hlayer
    rfl
  obtain ⟨authored, hauthored, hfaded⟩ := hreaches "getTextColor" "opacity" _
    (by simp [opacitySettings]) htext
  obtain rfl : authored = _ := Json.list.inj (hauthored.symm.trans hcolor)
  obtain ⟨items, ⟨opacity, alpha, -, -, rfl⟩, hitems⟩ := hfaded (by decide)
  simp [PropValue.ofJson, PropValue.ofItems] at hitems

end CompiledMap

end MapLayers
