import MapLayers.Proofs.ChannelProps
import MapLayers.Proofs.Layerwise

/-!
# Where compiled layers come from

Every compiled layer comes from one entry of the layer list and from the first well-formed dataset that
has the id the entry asks for. Its props are those of the producers laid over each other, so a lookup
in them is a lookup in the last producer that has the prop.
-/

namespace MapLayers

namespace Dataset

/-- The dataset that an entry describes, if it is well-formed. -/
def ofEntry? : Json → Option Dataset
  | .object fields => (ofFields fields).toOption
  | _ => none

/-- The first well-formed dataset of a document with an id. -/
def firstWellFormed? (fields : Json.Fields) (id : Json) : Option Dataset :=
  find? ((Json.fieldOf fields "datasets").itemsOrNone.filterMap ofEntry?) id

theorem ofEntry?_eq (position : Nat) (entry : Json) :
    ofEntry? entry = (ofEntry position entry).toOption := by
  cases entry <;> rfl

theorem wellFormed_eq {position : Nat} {entries : List Json} {loaded : List Dataset × Log}
    (h : wellFormed position entries = .ok loaded) : loaded.1 = entries.filterMap ofEntry? := by
  induction entries generalizing position loaded with
  | nil =>
    rw [wellFormed, Except.ok.injEq] at h
    rw [← h]
    rfl
  | cons entry rest ih =>
    rw [List.filterMap_cons, ofEntry?_eq position entry]
    unfold wellFormed at h
    cases hentry : ofEntry position entry with
    | ok dataset =>
      simp only [hentry, Result.bind_eq_ok_iff, Result.pure_eq_ok_iff] at h
      obtain ⟨others, hothers, rfl⟩ := h
      exact congrArg (dataset :: ·) (ih hothers)
    | error fault =>
      simp only [hentry, ofEntry_fault hentry, ne_eq, not_true_eq_false, if_false,
        Result.bind_eq_ok_iff, Result.pure_eq_ok_iff] at h
      obtain ⟨others, hothers, rfl⟩ := h
      show others.1 = _
      exact ih hothers

theorem loadWellFormed_eq {value : Json} {loaded : List Dataset × Log}
    (h : loadWellFormed value = .ok loaded) : loaded.1 = value.itemsOrNone.filterMap ofEntry? := by
  cases value with
  | list entries => exact wellFormed_eq h
  | _ => rw [← Except.ok.inj h]; rfl

end Dataset

namespace Blending

/-- Whether tooltips are on. -/
def tooltipEnabled (interaction : Json) : Bool :=
  (Json.fieldOf (Json.fieldOf interaction.fieldsOrNone "tooltip").fieldsOrNone "enabled").truthy

/-- The blend modes that have parameters. -/
def modes : List (String × Json.Fields) := [("additive", additive), ("subtractive", subtractive)]

/-- The parameters of a blend mode, none for a mode that is not known. -/
def modeParameters (blending : Json) : Json.Fields :=
  ((modes.find? fun mode => blending.isTheText mode.1).map Prod.snd).getD []

theorem interactionProps_eq {interaction : Json} {written : Json.Fields}
    (h : interactionProps interaction = .ok written) :
    written = [("autoHighlight", .bool (tooltipEnabled interaction)),
      ("pickable", .bool (tooltipEnabled interaction))] := by
  simp only [interactionProps, Result.bind_eq_ok_iff, Result.pure_eq_ok_iff] at h
  obtain ⟨tooltip, htooltip, enabled, henabled, rfl⟩ := h
  rw [Json.eq_fieldOf_of_lookup_orElse htooltip] at henabled
  rw [Json.eq_fieldOf_of_lookup_orElse henabled, tooltipEnabled]

theorem modeParameters_eq (blending : Json) : modeParameters blending =
    if blending.isTheText "additive" then additive
    else if blending.isTheText "subtractive" then subtractive else [] := by
  unfold modeParameters modes
  rw [List.find?_cons, List.find?_cons, List.find?_nil]
  cases blending.isTheText "additive" <;> cases blending.isTheText "subtractive" <;> rfl

theorem mode_eq {blending : Json} {parameters : Json.Fields} (h : mode blending = .ok parameters) :
    parameters = modeParameters blending := by
  rw [modeParameters_eq]
  unfold mode at h
  split at h
  · next hfalsy =>
    have hnone : ∀ name, name ≠ "" → blending.isTheText name = false := by
      intro name hname
      cases htext : blending.isTheText name with
      | false => rfl
      | true => simp [(Json.isTheText_iff _ _).mp htext, Json.truthy, hname] at hfalsy
    rw [hnone _ (by decide), hnone _ (by decide)]
    exact (Except.ok.inj h).symm
  · split at h
    · simp at h
    · cases hadditive : blending.isTheText "additive" <;>
        cases hsubtractive : blending.isTheText "subtractive" <;>
          simp only [hadditive, hsubtractive] at h <;> exact (Except.ok.inj h).symm

/-- The parameters of a style with those of the mode over them. -/
def mergedParameters (blending own : Json) : Json.Fields :=
  Entries.overlay own.fieldsOrNone (modeParameters blending)

/-- The field for merged parameters, if there are any. -/
def parametersField (merged : Json.Fields) : Json.Fields :=
  if merged.isEmpty then [] else [("parameters", .object merged)]

theorem parametersProp_eq {blending own : Json} {written : Json.Fields}
    (hown : own.truthy = true → own.isObject = true)
    (h : parametersProp blending own = .ok written) :
    written = parametersField (mergedParameters blending own) := by
  unfold parametersProp at h
  dsimp only at h
  split at h
  · next htruthy =>
    simp only [Result.bind_eq_ok_iff, Result.pure_eq_ok_iff] at h
    obtain ⟨fields, hfields, parameters, hmode, rfl⟩ := h
    rw [Json.eq_object_of_isObject (hown htruthy)] at hfields
    rw [mode_eq hmode, ← Except.ok.inj hfields]
    rfl
  · next hfalsy =>
    simp only [Result.bind_eq_ok_iff, Result.pure_eq_ok_iff] at h
    obtain ⟨fields, rfl, parameters, hmode, rfl⟩ := h
    have hempty : own.fieldsOrNone = [] := by
      cases own with
      | object fields => cases fields <;> simp_all [Json.truthy]
      | _ => rfl
    rw [mode_eq hmode, mergedParameters, hempty]
    rfl

theorem parametersField_distinct (merged : Json.Fields) : (parametersField merged).Distinct := by
  unfold parametersField
  split
  · exact .nil
  · exact List.nodup_cons.mpr ⟨by simp, .nil⟩

theorem parametersField_get? (merged : Json.Fields) {key : String} (hkey : key ≠ "parameters") :
    Entries.get? (parametersField merged) key = none := by
  unfold parametersField
  split
  · rfl
  · simp [Entries.get?_cons, Ne.symm hkey]

end Blending

namespace Assembly

variable {a : Assembly} {props : Props}

theorem next_inv {p : Progress} {produce : Assembly → Result Part}
    (h : (p.next a produce).props = .ok props) :
    ∃ before part, p.props = .ok before ∧ produce a = .ok part ∧
      props = Entries.overlay before part.props := by
  unfold Progress.next at h
  cases hbefore : p.props with
  | error fault => simp [hbefore] at h
  | ok before =>
    cases hpart : produce a with
    | error fault => simp [hbefore, hpart] at h
    | ok part => exact ⟨before, part, rfl, rfl, by simpa [hbefore, hpart, eq_comm] using h⟩

theorem plain_get? (fields : Json.Fields) (key : String) :
    Entries.get? (plain fields).props key = (Entries.get? fields key).map PropValue.ofJson :=
  Entries.get?_map fields PropValue.ofJson key

theorem plain_distinct {fields : Json.Fields} (h : fields.Distinct) :
    (plain fields).props.Distinct := h.map PropValue.ofJson

/-- The fields that the first producer writes. -/
def baseFields (a : Assembly) : Json.Fields :=
  [("id", .text a.layer.id), ("data", a.dataset.data)]

/-- The fields that say whether a layer can be picked. -/
def pickFields (a : Assembly) : Json.Fields :=
  let enabled := Blending.tooltipEnabled a.surroundings.interaction
  [("autoHighlight", .bool enabled), ("pickable", .bool enabled)]

/-- The parameters of the assembled layer. -/
def mergedParameters (a : Assembly) : Json.Fields :=
  Blending.mergedParameters a.surroundings.blending (Json.fieldOf a.style "parameters")

theorem run_inv
    (hparameters : (Json.fieldOf a.style "parameters").truthy = true →
      (Json.fieldOf a.style "parameters").isObject = true)
    (h : a.run.props = .ok props) :
    ∃ channels, Channels.resolve ⟨a.layer, a.dataset, a.style⟩ = .ok channels ∧
      props = [(plain a.baseFields).props, a.first, (plain a.pickFields).props,
        (plain a.style).props, channels,
        (plain (Blending.parametersField a.mergedParameters)).props,
        (plain (Blending.loadOptions a.surroundings.token)).props].foldl Entries.overlay [] := by
  simp only [run, producers, List.foldl_cons, List.foldl_nil] at h
  obtain ⟨_, _, h₆, hloading, rfl⟩ := next_inv h
  obtain ⟨_, _, h₅, hmerged, rfl⟩ := next_inv h₆
  obtain ⟨_, _, h₄, hchannels, rfl⟩ := next_inv h₅
  obtain ⟨_, _, h₃, hstyled, rfl⟩ := next_inv h₄
  obtain ⟨_, _, h₂, hpicked, rfl⟩ := next_inv h₃
  obtain ⟨_, _, h₁, hdefaults, rfl⟩ := next_inv h₂
  obtain ⟨_, _, h₀, hbase, rfl⟩ := next_inv h₁
  cases h₀
  cases hloading
  cases hstyled
  cases hdefaults
  cases hbase
  rw [parameters, Result.map_eq_ok_iff] at hmerged
  obtain ⟨_, hmerged, rfl⟩ := hmerged
  rw [Blending.parametersProp_eq hparameters hmerged]
  rw [interaction, Result.map_eq_ok_iff] at hpicked
  obtain ⟨_, hpicked, rfl⟩ := hpicked
  rw [Blending.interactionProps_eq hpicked]
  simp only [channels, Result.bind_eq_ok_iff, Result.pure_eq_ok_iff] at hchannels
  obtain ⟨channels, hchannels, rfl⟩ := hchannels
  exact ⟨channels, hchannels, rfl⟩

/-- What the last producer that has a prop gives for it. -/
def lookup (a : Assembly) (channels : Props) (key : String) : Option PropValue :=
  (Entries.get? (plain (Blending.loadOptions a.surroundings.token)).props key).or <|
  (Entries.get? (plain (Blending.parametersField a.mergedParameters)).props key).or <|
  (Entries.get? channels key).or <|
  (Entries.get? (plain a.style).props key).or <|
  (Entries.get? (plain a.pickFields).props key).or <|
  (Entries.get? a.first key).or <|
  Entries.get? (plain a.baseFields).props key

theorem run_get? (hfirst : a.first.Distinct) (hstyle : a.style.Distinct)
    (hparameters : (Json.fieldOf a.style "parameters").truthy = true →
      (Json.fieldOf a.style "parameters").isObject = true)
    (h : a.run.props = .ok props) :
    ∃ channels, Channels.resolve ⟨a.layer, a.dataset, a.style⟩ = .ok channels ∧
      ∀ key, Entries.get? props key = a.lookup channels key := by
  obtain ⟨channels, hchannels, rfl⟩ := run_inv hparameters h
  have hresolved : channels.Distinct := (Channels.resolve_reaches hchannels).distinct .nil
  refine ⟨channels, hchannels, fun key => ?_⟩
  have hbase : a.baseFields.Distinct := show ["id", "data"].Nodup by decide
  have hpicked : a.pickFields.Distinct := show ["autoHighlight", "pickable"].Nodup by decide
  have hloading : (Blending.loadOptions a.surroundings.token).Distinct :=
    show ["loadOptions"].Nodup by decide
  simp only [List.foldl_cons, List.foldl_nil]
  rw [Entries.get?_overlay _ (plain_distinct hloading),
    Entries.get?_overlay _ (plain_distinct (Blending.parametersField_distinct _)),
    Entries.get?_overlay _ hresolved, Entries.get?_overlay _ (plain_distinct hstyle),
    Entries.get?_overlay _ (plain_distinct hpicked), Entries.get?_overlay _ hfirst,
    Entries.get?_overlay _ (plain_distinct hbase), Entries.get?_nil, Option.or_none]
  rfl

end Assembly

open MapDocument (layerList outline)

/-- The entry of a document that a layer is compiled from, and what its props are assembled from. -/
structure Origin (token : Json) (fields : Json.Fields) (entry : Json) (a : Assembly)
    (descriptor : LayerDescriptor) : Prop where
  listed : entry ∈ layerList fields
  layer : LayerOutcome.layerOf entry = .ok a.layer
  dataset : Dataset.firstWellFormed? fields a.layer.dataId = some a.dataset
  hasData : a.dataset.hasData = true
  style : ∃ type markers, LayerType.ofJson (.text a.layer.type) = .ok type ∧
    LayerType.hasMarkers a.layer.config = .ok markers ∧
    type.firstProps a.layer.config a.dataset = .ok a.first ∧
    Style.props a.layer.config (type.table markers) = .ok a.style
  surroundings : a.surroundings = CompiledMap.surroundings token (outline fields)
  props : a.run.props = .ok descriptor.props
  type : descriptor.type = a.layer.type
  filters : LayerOutcome.filtersFor a.surroundings.filters a.dataset = .ok descriptor.filters

theorem requireText_eq {value : Json} {name s : String} (h : requireText value name = .ok s) :
    value = .text s := by
  unfold requireText at h
  split at h
  · split at h
    · simp at h
    · rw [Except.ok.inj h]
  · simp at h

theorem Layer.optionalObject_eq {value : Json} {name : String} {fields : Json.Fields}
    (h : optionalObject value name = .ok fields) : fields = value.fieldsOrNone := by
  cases value <;> simp_all [optionalObject, Json.fieldsOrNone]

theorem Layer.ofFields_inv {fields : Json.Fields} {layer : Layer} (h : ofFields fields = .ok layer) :
    Json.fieldOf fields "id" = .text layer.id ∧ Json.fieldOf fields "type" = .text layer.type ∧
      layer.config = (Json.fieldOf fields "config").fieldsOrNone := by
  simp only [ofFields, Result.bind_eq_ok_iff, Result.pure_eq_ok_iff] at h
  obtain ⟨id, hid, type, htype, config, hconfig, channels, -, rfl⟩ := h
  exact ⟨requireText_eq hid, requireText_eq htype, optionalObject_eq hconfig⟩

namespace LayerOutcome

variable {surroundings : Surroundings} {datasets : List Dataset} {entry : Json}

theorem layerOf_inv {layer : Layer} (h : layerOf entry = .ok layer) :
    ∃ fields, entry = .object fields ∧ Layer.ofFields fields = .ok layer := by
  unfold layerOf at h
  split at h
  · next fields =>
    split at h
    · next found hfound => exact ⟨fields, rfl, hfound.trans h⟩
    · simp at h
  · simp at h

theorem idOf_eq {layer : Layer} (h : layerOf entry = .ok layer) : idOf entry = .text layer.id := by
  obtain ⟨fields, rfl, hfields⟩ := layerOf_inv h
  exact (Layer.ofFields_inv hfields).1

theorem datasetOf_inv {layer : Layer} {dataset : Dataset}
    (h : datasetOf datasets layer = .ok dataset) :
    Dataset.find? datasets layer.dataId = some dataset ∧ dataset.hasData = true := by
  unfold datasetOf at h
  split at h
  · simp at h
  · next found hfound =>
    split at h
    · next hdata =>
      rw [← Except.ok.inj h]
      exact ⟨hfound, hdata⟩
    · simp at h

theorem prepare_inv {a : Assembly} (h : prepare surroundings datasets entry = .ok a) :
    layerOf entry = .ok a.layer ∧
    Dataset.find? datasets a.layer.dataId = some a.dataset ∧ a.dataset.hasData = true ∧
    (∃ type markers, LayerType.ofJson (.text a.layer.type) = .ok type ∧
      LayerType.hasMarkers a.layer.config = .ok markers ∧
      type.firstProps a.layer.config a.dataset = .ok a.first ∧
      Style.props a.layer.config (type.table markers) = .ok a.style) ∧
    a.surroundings = surroundings := by
  simp only [prepare, LayerType.propsFor, Result.bind_eq_ok_iff, Result.pure_eq_ok_iff] at h
  obtain ⟨layer, hlayer, dataset, hdataset, _, ⟨type, htype, markers, hmarkers, first, hfirst, rfl⟩,
    style, hstyle, rfl⟩ := h
  obtain ⟨hfound, hdata⟩ := datasetOf_inv hdataset
  exact ⟨hlayer, hfound, hdata, ⟨type, markers, htype, hmarkers, hfirst, hstyle⟩, rfl⟩

theorem ofEntry_inv {descriptor : LayerDescriptor}
    (h : (ofEntry surroundings datasets entry).result = .ok descriptor) :
    ∃ a, prepare surroundings datasets entry = .ok a ∧ a.run.props = .ok descriptor.props ∧
      descriptor.type = a.layer.type ∧
      filtersFor a.surroundings.filters a.dataset = .ok descriptor.filters := by
  unfold ofEntry at h
  cases hprepare : prepare surroundings datasets entry with
  | error fault => simp [hprepare] at h
  | ok a =>
    simp only [hprepare, Result.method_bind_eq_ok_iff, describe, Result.bind_eq_ok_iff,
      Result.pure_eq_ok_iff] at h
    obtain ⟨props, hprops, filters, hfilters, rfl⟩ := h
    exact ⟨a, rfl, hprops, rfl, hfilters⟩

end LayerOutcome

theorem CompiledMap.exists_origin {token : Json} {fields : Json.Fields} {whole : Compilation}
    (h : ofFields token fields = .ok whole) {descriptor : LayerDescriptor}
    (hmem : descriptor ∈ whole.map.layers) :
    ∃ entry a, Origin token fields entry a descriptor := by
  obtain ⟨-, loaded, hloaded, rfl⟩ := ofFields_inv h
  obtain ⟨entry, hentry, hresult⟩ := (Gathered.mem_layers_run _ _).mp hmem
  obtain ⟨a, hprepare, hprops, htype, hfilters⟩ := LayerOutcome.ofEntry_inv hresult
  obtain ⟨hlayer, hdataset, hdata, hstyle, hsurroundings⟩ := LayerOutcome.prepare_inv hprepare
  rw [Dataset.loadWellFormed_eq hloaded] at hdataset
  exact ⟨entry, a, List.mem_reverse.mp hentry, hlayer, hdataset, hdata, hstyle, hsurroundings,
    hprops, htype, hfilters⟩

end MapLayers
