import MapLayers.Proofs.AuthoredProps

/-!
# Style props of markers

With markers, the tables write the same as without, only the color and the size of points under other
names. So a layer that gets markers keeps its style props but for these two, and for a stroke that takes
its color from the filling.
-/

namespace MapLayers

open LayerType (visSetting)
open PropTable (Leaf authored? entriesFind findLast leaves pathsTo ruleFinds select selectAt)

namespace LayerType

/-- Points and their icons trade the names of their color and their size. -/
def tradedProp : String → String
  | "getFillColor" => "getIconColor"
  | "getPointRadius" => "getIconSize"
  | "getIconColor" => "getFillColor"
  | "getIconSize" => "getPointRadius"
  | prop => prop

/-- The props that have another name with markers. -/
def tradedProps : List String := ["getFillColor", "getPointRadius", "getIconColor", "getIconSize"]

theorem tradedProp_of_not_mem {prop : String} (h : prop ∉ tradedProps) : tradedProp prop = prop := by
  simp only [tradedProps, List.mem_cons, List.not_mem_nil, or_false, not_or] at h
  unfold tradedProp
  split <;> simp_all

theorem tradedProp_tradedProp (prop : String) : tradedProp (tradedProp prop) = prop := by
  by_cases h : prop ∈ tradedProps
  · simp only [tradedProps, List.mem_cons, List.not_mem_nil, or_false] at h
    rcases h with rfl | rfl | rfl | rfl <;> rfl
  · rw [tradedProp_of_not_mem h, tradedProp_of_not_mem h]

theorem tradedProp_inj {prop other : String} : tradedProp prop = tradedProp other ↔ prop = other :=
  ⟨fun h => by rw [← tradedProp_tradedProp prop, h, tradedProp_tradedProp], congrArg tradedProp⟩

theorem tradedProp_of_transform {prop : String} (h : prop ∈ transformProps) :
    tradedProp prop = prop := by
  apply tradedProp_of_not_mem
  simp only [transformProps, List.mem_cons, List.not_mem_nil, or_false] at h
  rcases h with rfl | rfl | rfl | rfl | rfl <;> decide

/-- A leaf that writes under the traded name. -/
def tradedLeaf (leaf : Leaf) : Leaf :=
  match leaf.2 with
  | .rename prop => (leaf.1, .rename (tradedProp prop))
  | _ => leaf

theorem leaves_markers (type : LayerType) :
    leaves (type.table true) = (leaves (type.table false)).map tradedLeaf := by
  cases type <;> rfl

variable {type : LayerType} {source : Json}

theorem find_tradedLeaf {leaf : Leaf} (hleaf : leaf ∈ leaves (type.table false)) (prop : String) :
    (tradedLeaf leaf).find (tradedProp prop) source = leaf.find prop source := by
  obtain ⟨path, rule⟩ := leaf
  cases rule with
  | rename other => simp [tradedLeaf, Leaf.find, ruleFinds, tradedProp_inj]
  | nested table => exact absurd rfl (PropTable.leaves_not_nested _ hleaf table)
  | invalid found => rfl
  | transform apply =>
    -- transforms write no prop that is traded, so both sides look for the same or find nothing
    by_cases hprop : prop ∈ transformProps
    · rw [tradedProp_of_transform hprop]
      rfl
    · have hnone : ∀ other ∉ transformProps, ∀ value,
          ruleFinds other value (.transform apply) = none := fun other hother value =>
        Option.eq_none_iff_forall_ne_some.mpr fun found hfound =>
          hother (transformed_of_ruleFinds hleaf rfl hfound).1
      have htraded : tradedProp prop ∉ transformProps := by
        intro hmem
        have hself := tradedProp_of_transform hmem
        rw [tradedProp_tradedProp] at hself
        exact hprop (hself ▸ hmem)
      simp [tradedLeaf, Leaf.find, hnone _ hprop, hnone _ htraded]

/-- What is found under a prop without markers is found under its traded name with them. -/
theorem entriesFind_markers (prop : String) :
    entriesFind (tradedProp prop) source (type.table true) =
      entriesFind prop source (type.table false) := by
  rw [PropTable.entriesFind_eq_findLast, PropTable.entriesFind_eq_findLast, leaves_markers, findLast,
    findLast, ← List.map_reverse, List.findSome?_map]
  apply PropTable.findSome?_congr
  intro leaf hleaf
  exact find_tradedLeaf (List.mem_reverse.mp hleaf) prop

theorem iconPaths (type : LayerType) : pathsTo "getIconColor" (type.table false) = [] ∧
    pathsTo "getIconSize" (type.table false) = [] := by
  cases type <;> exact ⟨rfl, rfl⟩

theorem radiusPaths (type : LayerType) : pathsTo "getPointRadius" (type.table false) =
    if type = heatmapTile then [] else [visPath "radius"] := by
  cases type <;> rfl

/-- The configuration with a wish for markers among its visual settings. -/
def withMarkers (config vis : Json.Fields) (flag : Json) : Json.Fields :=
  Entries.set config "visConfig" (.object (Entries.set vis "customMarkers" flag))

/-- Whether a path leads past the wish for markers. -/
def passesMarkers : List PropKey → Bool
  | .field key :: .field setting :: _ => !(key == "visConfig" && setting == "customMarkers")
  | .field key :: _ => !(key == "visConfig")
  | _ => false

variable (type) in
theorem leaves_passMarkers :
    (leaves (type.table false)).all (fun leaf => passesMarkers leaf.1) = true := by
  cases type <;> rfl

variable {config vis : Json.Fields} {flag : Json}

theorem selectAt_withMarkers (hvis : Json.fieldOf config "visConfig" = .object vis)
    {path : List PropKey} (hpath : passesMarkers path = true) :
    selectAt (.object (withMarkers config vis flag)) path = selectAt (.object config) path := by
  unfold passesMarkers at hpath
  split at hpath
  · next key setting rest =>
    have hselect : select (select (.object (withMarkers config vis flag)) (.field key))
        (.field setting) = select (select (.object config) (.field key)) (.field setting) := by
      by_cases hkey : "visConfig" = key
      · subst hkey
        have hsetting : "customMarkers" ≠ setting := by
          rintro rfl
          simp at hpath
        simp only [select, withMarkers, Json.fieldOf_set_self, hvis]
        exact Json.fieldOf_set_of_ne _ _ hsetting
      · simp only [select, withMarkers, Json.fieldOf_set_of_ne _ _ hkey]
    simp only [selectAt, List.foldl_cons, hselect]
  · next key rest hrest =>
    have hkey : "visConfig" ≠ key := by
      rintro rfl
      simp at hpath
    simp only [selectAt, List.foldl_cons, select, withMarkers, Json.fieldOf_set_of_ne _ _ hkey]
  · simp at hpath

theorem entriesFind_withMarkers (hvis : Json.fieldOf config "visConfig" = .object vis)
    (prop : String) :
    entriesFind prop (.object (withMarkers config vis flag)) (type.table false) =
      entriesFind prop (.object config) (type.table false) := by
  rw [PropTable.entriesFind_eq_findLast, PropTable.entriesFind_eq_findLast]
  apply PropTable.findSome?_congr
  intro leaf hleaf
  have hpath := List.all_eq_true.mp (leaves_passMarkers type) leaf (List.mem_reverse.mp hleaf)
  rw [Leaf.find, Leaf.find, selectAt_withMarkers hvis hpath]

theorem visSetting_withMarkers (config vis : Json.Fields) (flag : Json) :
    visSetting (withMarkers config vis flag) "customMarkers" = flag := by
  simp [visSetting, withMarkers, select]

theorem lookup_withMarkers (hvis : Json.fieldOf config "visConfig" = .object vis) {key : String}
    (hkey : key ≠ "customMarkers") :
    (Layer.visOf (withMarkers config vis flag)).lookup key = (Layer.visOf config).lookup key := by
  have hplain : Layer.visOf config = .object vis := by
    rw [Layer.visOf, hvis]
    exact Json.orElse_object fun _ => rfl
  have hmarked : Layer.visOf (withMarkers config vis flag) =
      .object (Entries.set vis "customMarkers" flag) := by
    rw [Layer.visOf, withMarkers, Json.fieldOf_set_self]
    exact Json.orElse_object fun _ => rfl
  rw [hplain, hmarked, Json.lookup, Json.lookup, Json.fieldOf_set_of_ne _ _ hkey.symm]

end LayerType

namespace Style

open LayerType (tradedProp withMarkers)

variable {vis vis' : Json} {props props' next next' : Json.Fields} {key : String}

/-- Equal colors get equal opacities, whatever else is among the props. -/
theorem withOpacity_congr {entry : String × String} (h : withOpacity vis props entry = .ok next)
    (h' : withOpacity vis' props' entry = .ok next') (hvis : vis'.lookup entry.2 = vis.lookup entry.2)
    (hkey : Entries.get? props' key = Entries.get? props key) :
    Entries.get? next' key = Entries.get? next key := by
  by_cases hown : key = entry.1
  · subst hown
    have hcolor : Json.fieldOf props' entry.1 = Json.fieldOf props entry.1 := by
      rw [Json.fieldOf, hkey, Json.fieldOf]
    cases hvalue : Json.fieldOf props entry.1 with
    | list channels =>
      simp only [withOpacity, hcolor, hvalue, hvis, Result.bind_eq_ok_iff,
        Result.pure_eq_ok_iff] at h h'
      obtain ⟨opacity, hopacity, alpha, halpha, rfl⟩ := h
      obtain ⟨opacity', hopacity', alpha', halpha', rfl⟩ := h'
      obtain rfl := Except.ok.inj (hopacity.symm.trans hopacity')
      obtain rfl := Except.ok.inj (halpha.symm.trans halpha')
      rw [Entries.get?_set_self, Entries.get?_set_self]
    | _ =>
      simp only [withOpacity, hcolor, hvalue, Except.ok.injEq] at h h'
      rw [← h, ← h', hkey]
  · rw [(withOpacity_spec h).1 key hown, (withOpacity_spec h').1 key hown, hkey]

theorem foldlM_withOpacity_congr {settings : List (String × String)}
    (h : settings.foldlM (withOpacity vis) props = .ok next)
    (h' : settings.foldlM (withOpacity vis') props' = .ok next')
    (hvis : ∀ entry ∈ settings, vis'.lookup entry.2 = vis.lookup entry.2)
    (hkey : Entries.get? props' key = Entries.get? props key) :
    Entries.get? next' key = Entries.get? next key := by
  induction settings generalizing props props' with
  | nil =>
    simp only [List.foldlM_nil, Result.pure_eq_ok_iff] at h h'
    exact h ▸ h' ▸ hkey
  | cons entry rest ih =>
    simp only [List.foldlM_cons, Result.bind_eq_ok_iff] at h h'
    obtain ⟨middle, hfirst, hrest⟩ := h
    obtain ⟨middle', hfirst', hrest'⟩ := h'
    obtain ⟨hentry, hothers⟩ := List.forall_mem_cons.mp hvis
    exact ih hrest hrest' hothers (withOpacity_congr hfirst hfirst' hentry hkey)

/-- A stroke without a color of its own, which takes that of the filling. -/
def BorrowsFill (props : Json.Fields) : Prop :=
  (Json.fieldOf props "stroked").truthy = true ∧ (Json.fieldOf props "getLineColor").truthy = false

theorem withStroke_of_not_borrowsFill (h : ¬BorrowsFill props) : withStroke props = props := by
  unfold withStroke
  split
  · next hfallback =>
    rw [Bool.and_eq_true, Bool.not_eq_true'] at hfallback
    exact absurd hfallback h
  · rfl

variable {config visual style style' : Json.Fields} {flag : Json} {type : LayerType}

theorem tabled_withMarkers (hvis : Json.fieldOf config "visConfig" = .object visual)
    (h : Style.props config (type.table false) = .ok style)
    (h' : Style.props (withMarkers config visual flag) (type.table true) = .ok style')
    (prop : String) :
    Entries.get? (tabled (withMarkers config visual flag) (type.table true)) (tradedProp prop) =
      Entries.get? (tabled config (type.table false)) prop := by
  rw [tabled_get? h', LayerType.entriesFind_markers, LayerType.entriesFind_withMarkers hvis,
    tabled_get? h]

theorem tabled_icons (h : Style.props config (type.table false) = .ok style) :
    Entries.get? (tabled config (type.table false)) "getIconColor" = none ∧
    Entries.get? (tabled config (type.table false)) "getIconSize" = none := by
  obtain ⟨hcolor, hsize⟩ := LayerType.iconPaths type
  rw [tabled_renamed h (by decide), tabled_renamed h (by decide), hcolor, hsize]
  exact ⟨rfl, rfl⟩

theorem tabled_radius (h : Style.props config (type.table false) = .ok style) :
    Entries.get? (tabled config (type.table false)) "getPointRadius" =
      if type = .heatmapTile then none else authored? (visSetting config "radius") := by
  rw [tabled_renamed h (by decide), LayerType.radiusPaths]
  have hradius : selectAt (.object config) (LayerType.visPath "radius") =
      visSetting config "radius" := rfl
  by_cases hheat : type = .heatmapTile <;> simp [hheat, hradius]

/-- Whether the strokes of a layer take the color of its filling. -/
def StrokesInFill (type : LayerType) (config : Json.Fields) : Prop :=
  (strokedSetting type config).truthy = true ∧ (visSetting config "strokeColor").truthy = false

theorem borrowsFill_iff (h : Style.props config (type.table false) = .ok style) :
    BorrowsFill (tabled config (type.table false)) ↔ StrokesInFill type config := by
  rw [BorrowsFill, StrokesInFill, tabled_stroked h, tabled_line h]

theorem borrowsFill_withMarkers (hvis : Json.fieldOf config "visConfig" = .object visual)
    (h : Style.props config (type.table false) = .ok style)
    (h' : Style.props (withMarkers config visual flag) (type.table true) = .ok style') :
    BorrowsFill (tabled (withMarkers config visual flag) (type.table true)) ↔
      BorrowsFill (tabled config (type.table false)) := by
  have hstroked := tabled_withMarkers hvis h h' "stroked"
  have hline := tabled_withMarkers hvis h h' "getLineColor"
  rw [LayerType.tradedProp_of_not_mem (by decide)] at hstroked hline
  rw [BorrowsFill, BorrowsFill, Json.fieldOf, Json.fieldOf, Json.fieldOf, Json.fieldOf, hstroked,
    hline]

/-- Where two layers have the same props from their tables, they have the same style props, unless it is
a stroke in the color of the filling. -/
theorem props_congr (hvis : Json.fieldOf config "visConfig" = .object visual)
    (h : Style.props config (type.table false) = .ok style)
    (h' : Style.props (withMarkers config visual flag) (type.table true) = .ok style')
    (hkey : Entries.get? (tabled (withMarkers config visual flag) (type.table true)) key =
      Entries.get? (tabled config (type.table false)) key)
    (hline : key = "getLineColor" → ¬StrokesInFill type config) :
    Entries.get? style' key = Entries.get? style key := by
  have hstroke : Entries.get?
      (withStroke (tabled (withMarkers config visual flag) (type.table true))) key =
      Entries.get? (withStroke (tabled config (type.table false))) key := by
    by_cases hlineKey : key = "getLineColor"
    · have hown : ¬BorrowsFill (tabled config (type.table false)) :=
        fun hborrows => hline hlineKey ((borrowsFill_iff h).mp hborrows)
      rw [withStroke_of_not_borrowsFill hown, withStroke_of_not_borrowsFill
        fun hborrows => hown ((borrowsFill_withMarkers hvis h h').mp hborrows), hkey]
    · rw [withStroke_get? hlineKey, withStroke_get? hlineKey, hkey]
  obtain ⟨-, colored, raised, hcolored, hraised, rfl⟩ := props_inv h
  obtain ⟨-, colored', raised', hcolored', hraised', rfl⟩ := props_inv h'
  have hsettings : ∀ entry ∈ opacitySettings,
      (Layer.visOf (withMarkers config visual flag)).lookup entry.2 =
        (Layer.visOf config).lookup entry.2 := by
    intro entry hentry
    apply LayerType.lookup_withMarkers hvis
    rintro hwish
    simp [opacitySettings] at hentry
    rcases hentry with rfl | rfl | rfl <;> simp at hwish
  have hcolors := foldlM_withOpacity_congr hcolored hcolored' hsettings hstroke
  rw [LayerType.lookup_withMarkers hvis (by decide), hraised] at hraised'
  rw [Except.ok.inj hraised']
  by_cases hhighlight : "highlightColor" = key
  · rw [hhighlight, Entries.get?_set_self, Entries.get?_set_self]
  · rw [Entries.get?_set_of_ne _ _ hhighlight, Entries.get?_set_of_ne _ _ hhighlight, hcolors]

theorem props_fill_none (h : Style.props config (type.table true) = .ok style) :
    Entries.get? style "getFillColor" = none := by
  have hfill := tabled_fill h
  obtain ⟨-, colored, raised, hcolored, -, rfl⟩ := props_inv h
  rw [Entries.get?_set_of_ne _ _ (by decide)]
  -- the same opacities in a run that starts without props
  have hempty : withOpacities (Layer.visOf config) [] = .ok [] := rfl
  refine foldlM_withOpacity_congr hempty hcolored (fun _ _ => rfl) ?_
  rw [withStroke_get? (by decide), hfill]
  rfl

/-- What icons have from points: the authored color and, but for heatmaps, the authored size. -/
def iconProps (type : LayerType) (config : Json.Fields) : Json.Fields :=
  (if (Json.fieldOf config "color").isNull then []
    else [("getIconColor", Json.fieldOf config "color")]) ++
  (if type = .heatmapTile ∨ (visSetting config "radius").isNull then []
    else [("getIconSize", visSetting config "radius")])

theorem iconProps_distinct : (iconProps type config).Distinct := by
  unfold iconProps
  split <;> split <;> simp [Entries.Distinct, Entries.keys]

theorem iconProps_color :
    Entries.get? (iconProps type config) "getIconColor" = authored? (Json.fieldOf config "color") := by
  unfold iconProps authored?
  split <;> split <;> simp [Entries.get?]

theorem iconProps_size : Entries.get? (iconProps type config) "getIconSize" =
    if type = .heatmapTile then none else authored? (visSetting config "radius") := by
  unfold iconProps authored?
  by_cases hheat : type = .heatmapTile <;> split <;> split <;> simp_all [Entries.get?]

theorem iconProps_other (hcolor : key ≠ "getIconColor") (hsize : key ≠ "getIconSize") :
    Entries.get? (iconProps type config) key = none := by
  unfold iconProps
  split <;> split <;> simp [Entries.get?, hcolor.symm, hsize.symm]

/-- The style props of a layer that gets markers, as they follow from those that it had. -/
def replaced (type : LayerType) (config style : Json.Fields) : Json.Fields :=
  Entries.overlay (Entries.erase (Entries.erase style "getFillColor") "getPointRadius")
    (iconProps type config)

theorem replaced_get? : Entries.get? (replaced type config style) key =
    (Entries.get? (iconProps type config) key).or
      (if "getFillColor" = key ∨ "getPointRadius" = key then none else Entries.get? style key) := by
  rw [replaced, Entries.get?_overlay _ iconProps_distinct, Entries.get?_erase, Entries.get?_erase]
  congr 1
  by_cases hfill : "getFillColor" = key <;> by_cases hradius : "getPointRadius" = key <;>
    simp [hfill, hradius]

/-- A layer that gets markers keeps its style props, but for its color and its size, which its icons
take over as they are authored. Only a stroke in the color of the filling may change as well. -/
theorem props_withMarkers {dataset : Dataset} {table table' : PropTable} {first first' : Props}
    (hvis : Json.fieldOf config "visConfig" = .object visual)
    (hplain : Entries.get? visual "customMarkers" = none) (hflag : flag.truthy = true)
    (htable : LayerType.propsFor (.text type.name) config dataset = .ok (table, first))
    (hstyle : Style.props config table = .ok style)
    (htable' : LayerType.propsFor (.text type.name) (withMarkers config visual flag) dataset =
      .ok (table', first'))
    (hstyle' : Style.props (withMarkers config visual flag) table' = .ok style') :
    ∀ key, (key = "getLineColor" → ¬StrokesInFill type config) →
      Entries.get? style' key = Entries.get? (replaced type config style) key := by
  have hunmarked : (visSetting config "customMarkers").truthy = false := by
    rw [visSetting, hvis, select, Json.fieldOf, hplain]
    rfl
  obtain rfl := LayerType.propsFor_table htable
  obtain rfl := LayerType.propsFor_table htable'
  rw [LayerType.visSetting_withMarkers, hflag] at hstyle'
  rw [hunmarked] at hstyle
  have htraded := tabled_withMarkers hvis hstyle hstyle'
  obtain ⟨hnoColor, hnoSize⟩ := tabled_icons hstyle
  intro key hline
  rw [replaced_get?]
  by_cases hkey : key ∈ LayerType.tradedProps
  · simp only [LayerType.tradedProps, List.mem_cons, List.not_mem_nil, or_false] at hkey
    rcases hkey with rfl | rfl | rfl | rfl
    · rw [props_fill_none hstyle', iconProps_other (by decide) (by decide)]
      rfl
    · rw [props_get? hstyle' (by decide), iconProps_other (by decide) (by decide)]
      exact (htraded "getIconSize").trans hnoSize
    · rw [props_get? hstyle' (by decide), props_get? hstyle (by decide), hnoColor, iconProps_color]
      refine (htraded "getFillColor").trans ?_
      rw [tabled_fill hstyle]
      simp
    · rw [props_get? hstyle' (by decide), props_get? hstyle (by decide), hnoSize, iconProps_size]
      refine (htraded "getPointRadius").trans ?_
      rw [tabled_radius hstyle]
      simp
  · have hsame := htraded key
    rw [LayerType.tradedProp_of_not_mem hkey] at hsame
    simp only [LayerType.tradedProps, List.mem_cons, List.not_mem_nil, or_false, not_or] at hkey
    obtain ⟨hfill, hradius, hcolor, hsize⟩ := hkey
    rw [iconProps_other hcolor hsize, if_neg (by simp [Ne.symm hfill, Ne.symm hradius])]
    exact props_congr hvis hstyle hstyle' hsame hline

/-- A layer with a color, a size and a stroke of its own. -/
def sizedPoints : Json.Fields :=
  [("color", .list [.int 1, .int 2, .int 3]),
    ("visConfig", .object [("radius", .int 7), ("stroked", .bool true),
      ("strokeColor", .list [.int 4, .int 5, .int 6])])]

theorem props_withMarkers_sizedPoints : ∃ visual table first style table' first' style',
    Json.fieldOf sizedPoints "visConfig" = .object visual ∧
    Entries.get? visual "customMarkers" = none ∧ (Json.bool true).truthy = true ∧
    LayerType.propsFor (.text LayerType.point.name) sizedPoints emptyDataset = .ok (table, first) ∧
    Style.props sizedPoints table = .ok style ∧
    LayerType.propsFor (.text LayerType.point.name) (withMarkers sizedPoints visual (.bool true))
      emptyDataset = .ok (table', first') ∧
    Style.props (withMarkers sizedPoints visual (.bool true)) table' = .ok style' ∧
    ∀ key, (key = "getLineColor" → ¬StrokesInFill .point sizedPoints) →
      Entries.get? style' key = Entries.get? (replaced .point sizedPoints style) key := by
  have htable : LayerType.propsFor (.text LayerType.point.name) sizedPoints emptyDataset =
      .ok (LayerType.point.table false, LayerType.sharedProps) := rfl
  have htable' : LayerType.propsFor (.text LayerType.point.name)
      (withMarkers sizedPoints [("radius", .int 7), ("stroked", .bool true),
        ("strokeColor", .list [.int 4, .int 5, .int 6])] (.bool true)) emptyDataset =
      .ok (LayerType.point.table true, LayerType.sharedProps) := rfl
  exact ⟨_, _, _, _, _, _, _, rfl, rfl, rfl, htable, rfl, htable', rfl,
    props_withMarkers rfl rfl rfl htable rfl htable' rfl⟩

end Style

end MapLayers
