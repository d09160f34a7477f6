import MapLayers.Proofs.Assembled

/-!
# Props that nothing overwrites

The id, the data, the picking flags, the props that all layers share and the load options of a compiled
layer are what their own producers made them: no table, highlight, marker, label or channel ever
writes one of them. The parameters are written by the style step alone before the blend mode is laid
over them.
-/

namespace MapLayers

open MapDocument (layerPart outline)

namespace LayerType

variable {type : LayerType} {config : Json.Fields} {dataset : Dataset} {first : Props}

theorem indexProps_writes {own : Props} (h : type.indexProps config dataset = .ok own) :
    own = [] ∨ ∃ prop value, own = [(prop, value)] ∧ (prop = "getHexagon" ∨ prop = "getQuadbin") := by
  unfold indexProps at h
  split at h
  · exact .inl (Except.ok.inj h).symm
  · next prop key fallback hindex =>
    simp only [Result.bind_eq_ok_iff, Result.pure_eq_ok_iff] at h
    obtain ⟨column, -, rfl⟩ := h
    refine .inr ⟨prop, _, rfl, ?_⟩
    cases type <;> simp_all [indexProp]

theorem firstProps_distinct (h : type.firstProps config dataset = .ok first) : first.Distinct := by
  simp only [firstProps, Result.bind_eq_ok_iff, Result.pure_eq_ok_iff] at h
  obtain ⟨own, -, rfl⟩ := h
  have hshared : sharedProps.Distinct :=
    show ["lineMiterLimit", "lineWidthUnits", "pointRadiusUnits", "rounded",
      "wrapLongitude"].Nodup by decide
  exact hshared.overlay own

theorem firstProps_get? (h : type.firstProps config dataset = .ok first) {key : String}
    (hhexagon : key ≠ "getHexagon") (hquadbin : key ≠ "getQuadbin") :
    Entries.get? first key = Entries.get? sharedProps key := by
  simp only [firstProps, Result.bind_eq_ok_iff, Result.pure_eq_ok_iff] at h
  obtain ⟨own, hown, rfl⟩ := h
  rcases indexProps_writes hown with rfl | ⟨prop, value, rfl, hprop⟩
  · rfl
  · refine Entries.get?_set_of_ne _ _ ?_
    rintro rfl
    rcases hprop with rfl | rfl
    · exact hhexagon rfl
    · exact hquadbin rfl

end LayerType

/-- All props that depend on the type, the configuration or the channels of a layer, and those of the
last two producers. -/
def laterProps : List String :=
  ["getHexagon", "getQuadbin", "loadOptions", "parameters"] ++
    ("highlightColor" :: Style.opacitySettings.map Prod.fst) ++ LayerType.tableProps ++
    Channels.channelProps

theorem Channels.get?_eq_none {c : Context} {props : Props} (h : resolve c = .ok props)
    {key : String} (hkey : key ∉ channelProps) : Entries.get? props key = none :=
  (resolve_reaches h).get?_eq fun _ hwritten => hkey hwritten.known

theorem Style.get?_eq_none {config style : Json.Fields} {type : LayerType} {markers : Bool}
    (h : Style.props config (type.table markers) = .ok style) {key : String}
    (hstep : key ∉ "highlightColor" :: opacitySettings.map Prod.fst)
    (hkey : key ∉ LayerType.tableProps) : Entries.get? style key = none := by
  rw [props_get? h hstep]
  cases hfound : Entries.get? (tabled config (type.table markers)) key with
  | none => rfl
  | some value => exact absurd (tabled_of_get? h hfound).known hkey

theorem Style.parameters_eq {config style : Json.Fields} {type : LayerType} {markers : Bool}
    (h : Style.props config (type.table markers) = .ok style) :
    Entries.get? style "parameters" = none ∨
      ∃ flag, Entries.get? style "parameters" =
        some (.object [("depthWriteEnabled", .bool flag)]) := by
  rw [props_get? h (by decide)]
  cases hfound : Entries.get? (tabled config (type.table markers)) "parameters" with
  | none => exact .inl rfl
  | some value =>
    obtain ⟨flag, rfl⟩ := (tabled_of_get? h hfound).parameters rfl
    exact .inr ⟨flag, rfl⟩

namespace Origin

variable {token : Json} {fields : Json.Fields} {entry : Json} {a : Assembly}
  {descriptor : LayerDescriptor}

theorem parameters_isObject (h : Origin token fields entry a descriptor) :
    (Json.fieldOf a.style "parameters").truthy = true →
      (Json.fieldOf a.style "parameters").isObject = true := by
  obtain ⟨type, markers, -, -, -, hstyle⟩ := h.style
  unfold Json.fieldOf
  rcases Style.parameters_eq hstyle with hnone | ⟨flag, hflag⟩
  · rw [hnone]
    simp [Json.truthy]
  · rw [hflag]
    exact fun _ => rfl

theorem get? (h : Origin token fields entry a descriptor) :
    ∃ channels, Channels.resolve ⟨a.layer, a.dataset, a.style⟩ = .ok channels ∧
      ∀ key, Entries.get? descriptor.props key = a.lookup channels key := by
  obtain ⟨type, markers, -, -, hfirst, hstyle⟩ := h.style
  exact Assembly.run_get? (LayerType.firstProps_distinct hfirst) (Style.props_distinct hstyle)
    h.parameters_isObject h.props

/-- Props that no later producer writes come from the first ones. -/
theorem get?_of_not_later (h : Origin token fields entry a descriptor) {key : String}
    (hkey : key ∉ laterProps) :
    Entries.get? descriptor.props key =
      (Entries.get? (Assembly.plain a.pickFields).props key).or
      ((Entries.get? LayerType.sharedProps key).or
      (Entries.get? (Assembly.plain a.baseFields).props key)) := by
  obtain ⟨channels, hchannels, hprops⟩ := h.get?
  obtain ⟨type, markers, -, -, hfirst, hstyle⟩ := h.style
  simp only [laterProps, List.mem_append, not_or] at hkey
  obtain ⟨⟨⟨hlast, hstep⟩, htable⟩, hchannel⟩ := hkey
  simp only [List.mem_cons, List.not_mem_nil, or_false, not_or] at hlast
  obtain ⟨hhexagon, hquadbin, hloading, hparameters⟩ := hlast
  have hloadingNone : Entries.get? (Blending.loadOptions a.surroundings.token) key = none := by
    simp [Blending.loadOptions, Entries.get?_cons, Ne.symm hloading]
  rw [hprops, Assembly.lookup, Assembly.plain_get?, hloadingNone, Assembly.plain_get?,
    Blending.parametersField_get? _ hparameters, Channels.get?_eq_none hchannels hchannel,
    Assembly.plain_get? a.style, Style.get?_eq_none hstyle hstep htable,
    LayerType.firstProps_get? hfirst hhexagon hquadbin]
  rfl

end Origin

/-- The base props of a compiled layer, as the document has them. -/
structure BaseKept (token : Json) (fields : Json.Fields) (entry : Json) (a : Assembly)
    (props : Props) : Prop where
  id : Entries.get? props "id" = some (.ofJson (LayerOutcome.idOf entry))
  data : Entries.get? props "data" = some (.ofJson a.dataset.data)
  pickable : Entries.get? props "pickable" =
    some (.bool (Blending.tooltipEnabled (Json.fieldOf (layerPart fields) "interactionConfig")))
  autoHighlight : Entries.get? props "autoHighlight" =
    some (.bool (Blending.tooltipEnabled (Json.fieldOf (layerPart fields) "interactionConfig")))
  shared : ∀ default ∈ LayerType.sharedProps, Entries.get? props default.1 = some default.2
  loadOptions : Entries.get? props "loadOptions" =
    some (.ofJson (.object [("fetch", .object [("headers", .object [("Authorization",
      .text ("Bearer " ++
        (if token.isNull then Json.fieldOf fields "token" else token).display))])])]))
  parameters : Entries.get? props "parameters" =
    let merged := Entries.overlay (Json.fieldOf a.style "parameters").fieldsOrNone
      (Blending.modeParameters (Json.fieldOf (layerPart fields) "layerBlending"))
    if merged.isEmpty then none else some (.ofJson (.object merged))

namespace Origin

variable {token : Json} {fields : Json.Fields} {entry : Json} {a : Assembly}
  {descriptor : LayerDescriptor}

/-- The parameters of the style show exactly when there are parameters at all. -/
theorem get?_parameters (h : Origin token fields entry a descriptor) :
    Entries.get? descriptor.props "parameters" =
      if a.mergedParameters.isEmpty then none else some (.ofJson (.object a.mergedParameters)) := by
  obtain ⟨channels, hchannels, hprops⟩ := h.get?
  obtain ⟨type, markers, -, -, hfirst, hstyle⟩ := h.style
  rw [hprops, Assembly.lookup, Assembly.plain_get? (Blending.parametersField _)]
  unfold Blending.parametersField
  split
  · next hempty =>
    have hnone : Entries.get? a.style "parameters" = none := by
      rcases Style.parameters_eq hstyle with hnone | ⟨flag, hflag⟩
      · exact hnone
      · have hfields : (Json.fieldOf a.style "parameters").fieldsOrNone = [] :=
          Entries.eq_nil_of_overlay (List.isEmpty_iff.mp hempty)
        rw [Json.fieldOf, hflag] at hfields
        simp at hfields
    rw [Channels.get?_eq_none hchannels (by decide), Assembly.plain_get? a.style, hnone,
      LayerType.firstProps_get? hfirst (by decide) (by decide)]
    rfl
  · rfl

theorem base_kept (h : Origin token fields entry a descriptor) :
    BaseKept token fields entry a descriptor.props := by
  have hinteraction : a.surroundings.interaction =
      Json.fieldOf (layerPart fields) "interactionConfig" := by
    rw [h.surroundings]
    rfl
  exact {
    id := by
      rw [h.get?_of_not_later (by decide), LayerOutcome.idOf_eq h.layer]
      rfl
    data := by
      rw [h.get?_of_not_later (by decide)]
      rfl
    pickable := by
      rw [h.get?_of_not_later (by decide), ← hinteraction]
      rfl
    autoHighlight := by
      rw [h.get?_of_not_later (by decide), ← hinteraction]
      rfl
    shared := by
      intro default hdefault
      simp only [LayerType.sharedProps, List.mem_cons, List.not_mem_nil, or_false] at hdefault
      rcases hdefault with rfl | rfl | rfl | rfl | rfl <;>
      · rw [h.get?_of_not_later (by decide)]
        rfl
    loadOptions := by
      obtain ⟨channels, -, hprops⟩ := h.get?
      rw [hprops, Assembly.lookup, h.surroundings]
      rfl
    parameters := by
      rw [h.get?_parameters, Assembly.mergedParameters, h.surroundings]
      rfl }

end Origin

/-- Every compiled layer has its origin in the document, and keeps its base props from there. -/
theorem CompiledMap.base_props_kept {token : Json} {fields : Json.Fields} {whole : Compilation}
    (h : ofFields token fields = .ok whole) {descriptor : LayerDescriptor}
    (hmem : descriptor ∈ whole.map.layers) :
    (∃ entry a, Origin token fields entry a descriptor) ∧
    ∀ entry a, Origin token fields entry a descriptor →
      BaseKept token fields entry a descriptor.props :=
  ⟨exists_origin h hmem, fun _ _ horigin => horigin.base_kept⟩

namespace CompiledMap

/-- A document with tooltips and a blend mode, and a layer with parameters of its own. -/
def blendedDocument : Json.Fields :=
  [("token", .text "t"),
    ("datasets", .list [.object [("id", .text "d"), ("data", .list [])]]),
    ("keplerMapConfig", .object [("version", .text "v1"), ("config", .object [("visState", .object
      [("layerBlending", .text "additive"),
        ("interactionConfig", .object [("tooltip", .object [("enabled", .bool true)])]),
        ("layers", .list [.object [("id", .text "a"), ("type", .text "point"),
          ("config", .object [("dataId", .text "d"),
            ("columns", .object [("altitude", .text "height")])])]])])])])]

theorem base_props_kept_blended : ∃ whole descriptor,
    ofFields .null blendedDocument = .ok whole ∧ descriptor ∈ whole.map.layers ∧
    Entries.get? descriptor.props "parameters" =
      some (.ofJson (.object (("depthWriteEnabled", .bool true) :: Blending.additive))) ∧
    (∃ entry a, Origin .null blendedDocument entry a descriptor) ∧
    ∀ entry a, Origin .null blendedDocument entry a descriptor →
      BaseKept .null blendedDocument entry a descriptor.props := by
  obtain ⟨whole, descriptor, hwhole, hmem, hparameters⟩ : ∃ whole descriptor,
      ofFields .null blendedDocument = .ok whole ∧ descriptor ∈ whole.map.layers ∧
      Entries.get? descriptor.props "parameters" =
        some (.ofJson (.object (("depthWriteEnabled", .bool true) :: Blending.additive))) :=
    ⟨_, _, rfl, List.Mem.head _, rfl⟩
  exact ⟨whole, descriptor, hwhole, hmem, hparameters, base_props_kept hwhole hmem⟩

end CompiledMap

end MapLayers
