import MapLayers.Proofs.StyleProps
import MapLayers.Proofs.TableLeaves

/-!
# Props as they are authored

The tables of the layer types rename most settings to props; only a few props come from transforms. So
the color, the strokes and the size of a layer can be read off its configuration, whatever its type is
and with or without markers.
-/

namespace MapLayers

open PropTable (Leaf OnlyRenamed authored? leaves pathsTo ruleFinds selectAt)

namespace LayerType

/-- The transforms among the rules of a layer type. -/
def ownTransforms : LayerType → List (Json → Result Json.Fields)
  | point => [depthParameters]
  | grid => [colorAggregation, colorRange, inMeters "cellSize"]
  | hexagon => [colorAggregation, colorRange, inMeters "radius"]
  | heatmapTile => [colorRange]
  | _ => []

def transform? (leaf : Leaf) : Option (Json → Result Json.Fields) :=
  match leaf.2 with
  | .transform apply => some apply
  | _ => none

theorem transforms_eq (type : LayerType) (markers : Bool) :
    (leaves (type.table markers)).filterMap transform? = type.ownTransforms := by
  cases type <;> cases markers <;> rfl

/-- The props that transforms write. -/
def transformProps : List String :=
  ["colorAggregation", "colorRange", "cellSize", "radius", "parameters"]

/-- What all transforms keep to: their props are their own, and none is null. -/
def Transformed (entry : String × Json) : Prop :=
  entry.1 ∈ transformProps ∧ entry.2.isNull = false

variable {type : LayerType} {markers : Bool} {config : Json.Fields} {dataset : Dataset}
  {value : Json} {written : Json.Fields}

theorem colorAggregation_transformed (h : colorAggregation value = .ok written) :
    ∀ entry ∈ written, Transformed entry := by
  unfold colorAggregation at h
  split at h
  · simp at h
  · rw [← Except.ok.inj h]
    simp [Transformed, transformProps, Json.isNull]

theorem colorRange_transformed (h : colorRange value = .ok written) :
    ∀ entry ∈ written, Transformed entry := by
  rw [colorRange, Result.bind_eq_ok_iff] at h
  obtain ⟨colors, -, h⟩ := h
  split at h <;>
  · simp only [Result.bind_eq_ok_iff, Result.pure_eq_ok_iff] at h
    obtain ⟨-, -, parsed, -, rfl⟩ := h
    simp [Transformed, transformProps, Json.isNull]

theorem inMeters_transformed {prop : String} (hprop : prop ∈ transformProps)
    (h : inMeters prop value = .ok written) : ∀ entry ∈ written, Transformed entry := by
  obtain ⟨meters, hmeters, rfl⟩ := inMeters_writes h
  simp [Transformed, hprop, hmeters]

theorem depthParameters_transformed (h : depthParameters value = .ok written) :
    ∀ entry ∈ written, Transformed entry := by
  rw [← Except.ok.inj h]
  simp [Transformed, transformProps, Json.isNull]

theorem ownTransforms_transformed {apply : Json → Result Json.Fields}
    (hown : apply ∈ type.ownTransforms) (h : apply value = .ok written) :
    ∀ entry ∈ written, Transformed entry := by
  cases type with
  | point => exact depthParameters_transformed (List.mem_singleton.mp hown ▸ h)
  | heatmapTile => exact colorRange_transformed (List.mem_singleton.mp hown ▸ h)
  | grid | hexagon =>
    simp only [ownTransforms, List.mem_cons, List.not_mem_nil, or_false] at hown
    rcases hown with rfl | rfl | rfl
    · exact colorAggregation_transformed h
    · exact colorRange_transformed h
    · exact inMeters_transformed (by decide) h
  | tileset | mvt | hexagonId | quadbin | clusterTile => simp [ownTransforms] at hown

/-- What a transform of a layer table finds under a prop. -/
theorem transformed_of_ruleFinds {leaf : Leaf} {apply : Json → Result Json.Fields}
    (hleaf : leaf ∈ leaves (type.table markers)) (happly : leaf.2 = .transform apply)
    {prop : String} {found : Json} (h : ruleFinds prop value (.transform apply) = some found) :
    Transformed (prop, found) := by
  have hown : apply ∈ type.ownTransforms := by
    rw [← transforms_eq type markers]
    exact List.mem_filterMap.mpr ⟨leaf, hleaf, by simp [transform?, happly]⟩
  unfold ruleFinds at h
  split at h
  · next written hwritten =>
    have hreaches : Entries.Reaches (fun key value => Transformed (key, value)) []
        (Entries.ofList written) :=
      Entries.Reaches.start.overlay (ownTransforms_transformed hown hwritten)
    exact hreaches.admits_of_get? h
  · simp at h

theorem onlyRenamed {prop : String} (hprop : prop ∉ transformProps) :
    OnlyRenamed prop (type.table markers) := by
  intro leaf hleaf value hfound
  cases hrule : leaf.2 with
  | rename other =>
    rw [hrule, ruleFinds] at hfound
    by_cases hother : other = prop
    · rw [hother]
    · exact absurd (if_neg hother) hfound
  | transform apply =>
    rw [hrule] at hfound
    obtain ⟨found, hfound⟩ := Option.ne_none_iff_exists'.mp hfound
    exact absurd (transformed_of_ruleFinds hleaf hrule hfound).1 hprop
  | nested table => exact absurd hrule (PropTable.leaves_not_nested leaf hleaf table)
  | invalid found =>
    rw [hrule] at hfound
    exact absurd rfl hfound

/-- The path of a visual setting. -/
def visPath (key : String) : List PropKey := [.field "visConfig", .field key]

variable (type markers) in
theorem fillPaths : pathsTo "getFillColor" (type.table markers) =
    if markers then [] else [[.field "color"]] := by
  cases type <;> cases markers <;> rfl

variable (type markers) in
theorem strokedPaths : pathsTo "stroked" (type.table markers) =
    if type = point then [visPath "stroked", visPath "outline"] else [visPath "stroked"] := by
  cases type <;> cases markers <;> rfl

theorem ofJson_name (type : LayerType) : ofJson (.text type.name) = .ok type := by
  cases type <;> rfl

theorem hasMarkers_eq {wanted : Bool} (h : hasMarkers config = .ok wanted) :
    wanted = (visSetting config "customMarkers").truthy := by
  simp only [hasMarkers, Result.bind_eq_ok_iff, Result.pure_eq_ok_iff] at h
  obtain ⟨setting, hsetting, rfl⟩ := h
  rw [eq_visSetting_of_lookup hsetting]

theorem propsFor_table {table : PropTable} {first : Props}
    (h : propsFor (.text type.name) config dataset = .ok (table, first)) :
    table = type.table (visSetting config "customMarkers").truthy := by
  simp only [propsFor, ofJson_name, Result.ok_bind, Result.bind_eq_ok_iff,
    Result.pure_eq_ok_iff, Prod.mk.injEq] at h
  obtain ⟨wanted, hwanted, first, -, rfl, -⟩ := h
  rw [hasMarkers_eq hwanted]

end LayerType

namespace Style

open LayerType (visSetting)

variable {config style : Json.Fields} {type : LayerType} {markers : Bool}

theorem tabled_get? (h : Style.props config (type.table markers) = .ok style) (prop : String) :
    Entries.get? (tabled config (type.table markers)) prop =
      PropTable.entriesFind prop (.object config) (type.table markers) := by
  rw [tabled, PropTable.apply, PropTable.applyEntries_get? (props_inv h).1, Entries.get?_nil,
    Option.or_none]

/-- A prop that no transform writes is the last authored value among its paths. -/
theorem tabled_renamed (h : Style.props config (type.table markers) = .ok style) {prop : String}
    (hprop : prop ∉ LayerType.transformProps) :
    Entries.get? (tabled config (type.table markers)) prop =
      (pathsTo prop (type.table markers)).reverse.findSome? fun path =>
        authored? (selectAt (.object config) path) := by
  rw [tabled_get? h, PropTable.entriesFind_of_onlyRenamed (LayerType.onlyRenamed hprop)]

theorem tabled_fill (h : Style.props config (type.table markers) = .ok style) :
    Entries.get? (tabled config (type.table markers)) "getFillColor" =
      if markers then none else authored? (Json.fieldOf config "color") := by
  rw [tabled_renamed h (by decide), LayerType.fillPaths]
  have hcolor : selectAt (.object config) [.field "color"] = Json.fieldOf config "color" := rfl
  cases markers <;> simp [hcolor]

/-- Whether a layer has strokes. The outline of points counts if there is one. -/
def strokedSetting (type : LayerType) (config : Json.Fields) : Json :=
  if type = .point ∧ (visSetting config "outline").isNull = false then visSetting config "outline"
  else visSetting config "stroked"

theorem tabled_stroked (h : Style.props config (type.table markers) = .ok style) :
    Json.fieldOf (tabled config (type.table markers)) "stroked" = strokedSetting type config := by
  have houtline : selectAt (.object config) (LayerType.visPath "outline") =
      visSetting config "outline" := rfl
  have hstroked : selectAt (.object config) (LayerType.visPath "stroked") =
      visSetting config "stroked" := rfl
  rw [Json.fieldOf, tabled_renamed h (by decide), LayerType.strokedPaths, strokedSetting]
  by_cases hpoint : type = .point
  · have hpaths : (if type = .point then [LayerType.visPath "stroked", LayerType.visPath "outline"]
        else [LayerType.visPath "stroked"]).reverse =
        [LayerType.visPath "outline", LayerType.visPath "stroked"] := by simp [hpoint]
    rw [hpaths, List.findSome?_cons, List.findSome?_singleton, houtline, hstroked]
    cases hnull : (visSetting config "outline").isNull
    · simp [hpoint, authored?, hnull]
    · rw [authored?, if_pos hnull]
      simp [PropTable.getD_authored?]
  · simp [hpoint, hstroked, PropTable.getD_authored?]

/-- A dataset without any rows. -/
def emptyDataset : Dataset := ⟨"d", .null, .null, .list [], .null⟩

end Style

end MapLayers
