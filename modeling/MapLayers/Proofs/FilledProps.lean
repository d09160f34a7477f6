import MapLayers.Proofs.AuthoredProps

/-!
# Style props without nulls

Tables skip what is absent or null, so none of their props is null, and neither opacities nor the
highlight bring a null in. Only the stroke does: without a color of its own it takes that of the filling,
even if the style props have no filling to take it from.
-/

namespace MapLayers

open LayerType (visSetting)
open PropTable (Leaf leaves)

def Filled (props : Json.Fields) : Prop := ∀ entry ∈ props, entry.2.isNull = false

theorem filled_iff_get? {props : Json.Fields} (h : props.Distinct) :
    Filled props ↔ ∀ key, Entries.get? props key ≠ some .null := by
  constructor
  · intro hfilled key hnull
    have hentry := hfilled _ (Entries.mem_of_get?_eq_some hnull)
    simp [Json.isNull] at hentry
  · rintro hkeys ⟨key, value⟩ hentry
    cases value with
    | null => exact absurd (Entries.get?_of_mem h hentry) (hkeys key)
    | _ => rfl

namespace LayerType

variable {type : LayerType} {markers : Bool} {config : Json.Fields}

theorem leaf_find_ne_null {leaf : Leaf} (hleaf : leaf ∈ leaves (type.table markers))
    (prop : String) (source : Json) : leaf.find prop source ≠ some .null := by
  intro hfound
  unfold Leaf.find at hfound
  split at hfound
  · simp at hfound
  · next hnull =>
    cases hrule : leaf.2 with
    | rename other =>
      rw [hrule, PropTable.ruleFinds] at hfound
      split at hfound
      · rw [Option.some.inj hfound] at hnull
        exact hnull rfl
      · simp at hfound
    | transform apply =>
      rw [hrule] at hfound
      exact absurd (transformed_of_ruleFinds hleaf hrule hfound).2 (by simp [Json.isNull])
    | nested table => exact PropTable.leaves_not_nested leaf hleaf table hrule
    | invalid found => simp [hrule, PropTable.ruleFinds] at hfound

theorem entriesFind_ne_null (prop : String) (source : Json) :
    PropTable.entriesFind prop source (type.table markers) ≠ some .null := by
  rw [PropTable.entriesFind_eq_findLast]
  intro hfound
  obtain ⟨leaf, hleaf, hnull⟩ := List.exists_of_findSome?_eq_some hfound
  exact leaf_find_ne_null (List.mem_reverse.mp hleaf) prop source hnull

end LayerType

namespace Style

variable {vis : Json} {props next : Json.Fields} {config style : Json.Fields} {type : LayerType}
  {markers : Bool} {dataset : Dataset}

theorem withOpacity_null_iff {entry : String × String} (h : withOpacity vis props entry = .ok next)
    (key : String) : Entries.get? next key = some .null ↔ Entries.get? props key = some .null := by
  unfold withOpacity at h
  split at h
  · next color hcolor =>
    simp only [Result.bind_eq_ok_iff, Result.pure_eq_ok_iff] at h
    obtain ⟨opacity, -, alpha, -, rfl⟩ := h
    by_cases hkey : entry.1 = key
    · rw [← hkey, Entries.get?_set_self]
      refine iff_of_false (by simp) fun hnull => ?_
      simp [Json.fieldOf, hnull] at hcolor
    · rw [Entries.get?_set_of_ne _ _ hkey]
  · rw [← Except.ok.inj h]

theorem withOpacities_null_iff (h : withOpacities vis props = .ok next) (key : String) :
    Entries.get? next key = some .null ↔ Entries.get? props key = some .null :=
  Result.foldlM_induction
    (motive := fun after =>
      Entries.get? after key = some .null ↔ Entries.get? props key = some .null)
    (fun _ _ _ _ hstep hbefore => (withOpacity_null_iff hstep key).trans hbefore) Iff.rfl h

/-- A stroke that takes the color of a filling which is not there. -/
def BorrowsNull (props : Json.Fields) : Prop :=
  (Json.fieldOf props "stroked").truthy = true ∧
    (Json.fieldOf props "getLineColor").truthy = false ∧
    (Json.fieldOf props "getFillColor").isNull = true

theorem withStroke_null_iff (hprops : ∀ key, Entries.get? props key ≠ some .null) (key : String) :
    Entries.get? (withStroke props) key = some .null ↔ key = "getLineColor" ∧ BorrowsNull props := by
  unfold withStroke
  split
  · next hfallback =>
    rw [Bool.and_eq_true, Bool.not_eq_true'] at hfallback
    by_cases hkey : key = "getLineColor"
    · rw [hkey, Entries.get?_set_self]
      simp only [BorrowsNull, hfallback, true_and, Option.some.injEq]
      cases Json.fieldOf props "getFillColor" <;> simp [Json.isNull]
    · rw [Entries.get?_set_of_ne _ _ (Ne.symm hkey)]
      exact iff_of_false (hprops key) fun h => hkey h.1
  · next hown =>
    rw [Bool.and_eq_true, Bool.not_eq_true'] at hown
    exact iff_of_false (hprops key) fun h => hown ⟨h.2.1, h.2.2.1⟩

theorem props_null_iff (h : Style.props config (type.table markers) = .ok style) (key : String) :
    Entries.get? style key = some .null ↔
      key = "getLineColor" ∧ BorrowsNull (tabled config (type.table markers)) := by
  obtain ⟨-, colored, raised, hcolored, -, hstyle⟩ := props_inv h
  have htabled : ∀ key, Entries.get? (tabled config (type.table markers)) key ≠ some .null := by
    intro key
    rw [tabled_get? h]
    exact LayerType.entriesFind_ne_null key _
  rw [hstyle]
  by_cases hkey : "highlightColor" = key
  · subst key
    rw [Entries.get?_set_self]
    refine iff_of_false ?_ fun h => absurd h.1 (by decide)
    cases raised.truthy <;> simp [raisedHighlight, flatHighlight]
  · rw [Entries.get?_set_of_ne _ _ hkey, withOpacities_null_iff hcolored,
      withStroke_null_iff htabled]

/-- A layer with strokes but without a stroke color, the filling of which is not in its style props:
because no color is authored, or because its markers have the color instead. -/
def StrokesWithoutFill (type : LayerType) (config : Json.Fields) : Prop :=
  (strokedSetting type config).truthy = true ∧
    (visSetting config "strokeColor").truthy = false ∧
    ((visSetting config "customMarkers").truthy = true ∨ (Json.fieldOf config "color").isNull = true)

theorem borrowsNull_iff (h : Style.props config (type.table markers) = .ok style)
    (hmarkers : markers = (visSetting config "customMarkers").truthy) :
    BorrowsNull (tabled config (type.table markers)) ↔ StrokesWithoutFill type config := by
  have hfill : (Json.fieldOf (tabled config (type.table markers)) "getFillColor").isNull = true ↔
      markers = true ∨ (Json.fieldOf config "color").isNull = true := by
    rw [Json.fieldOf, tabled_fill h]
    cases markers with
    | true => simp [Json.isNull]
    | false => simp [PropTable.getD_authored?]
  rw [BorrowsNull, StrokesWithoutFill, tabled_stroked h, tabled_line h, hfill, hmarkers]

/-- The style props of a layer are free of nulls exactly unless its strokes take the color of a filling
that the style props do not have. There the stroke color is null, and nothing else is. -/
theorem props_filled_iff {table : PropTable} {first : Props}
    (htable : LayerType.propsFor (.text type.name) config dataset = .ok (table, first))
    (hstyle : Style.props config table = .ok style) :
    (Filled style ↔ ¬StrokesWithoutFill type config) ∧
    (StrokesWithoutFill type config → ∀ key,
      Entries.get? style key = some .null ↔ key = "getLineColor") := by
  obtain rfl := LayerType.propsFor_table htable
  have hborrows := borrowsNull_iff hstyle rfl
  rw [filled_iff_get? (props_distinct hstyle)]
  constructor
  · constructor
    · intro hfilled hstrokes
      exact hfilled _ ((props_null_iff hstyle _).mpr ⟨rfl, hborrows.mpr hstrokes⟩)
    · intro hstrokes key hnull
      exact hstrokes (hborrows.mp ((props_null_iff hstyle key).mp hnull).2)
  · intro hstrokes key
    rw [props_null_iff hstyle, and_iff_left (hborrows.mpr hstrokes)]

/-- A layer with strokes in the color of its filling. -/
def filledStrokes : Json.Fields :=
  [("color", .list [.int 1, .int 2, .int 3]), ("visConfig", .object [("stroked", .bool true)])]

theorem props_filled_strokes : ∃ table first style,
    LayerType.propsFor (.text LayerType.point.name) filledStrokes emptyDataset =
      .ok (table, first) ∧
    Style.props filledStrokes table = .ok style ∧
    (Filled style ↔ ¬StrokesWithoutFill .point filledStrokes) ∧
    (StrokesWithoutFill .point filledStrokes → ∀ key,
      Entries.get? style key = some .null ↔ key = "getLineColor") := by
  have htable : LayerType.propsFor (.text LayerType.point.name) filledStrokes emptyDataset =
      .ok (LayerType.point.table false, LayerType.sharedProps) := rfl
  exact ⟨_, _, _, htable, rfl, props_filled_iff htable rfl⟩

/-- A layer with strokes but without any color. -/
def bareStrokes : Json.Fields := [("visConfig", .object [("stroked", .bool true)])]

/-- Strokes without a filling get null as their color. -/
theorem bare_strokes_null : ∃ table first style,
    LayerType.propsFor (.text LayerType.mvt.name) bareStrokes emptyDataset = .ok (table, first) ∧
    Style.props bareStrokes table = .ok style ∧
    Entries.get? style "getLineColor" = some .null ∧ ¬Filled style :=
  ⟨_, _, _, rfl, rfl, rfl, fun hfilled =>
    absurd (hfilled ("getLineColor", .null) (Entries.mem_of_get?_eq_some rfl)) (by decide)⟩

end Style

end MapLayers
