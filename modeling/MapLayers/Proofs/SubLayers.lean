import MapLayers.Proofs.AccessorPlaces
import MapLayers.Proofs.PointType

/-!
# Sub-layers

Markers and labels give a layer sub-layers for its icons and for its texts. Both come after the steps that
resolve its radius: icons take it over as their size, texts as the room that they keep. So each sub-layer
stands beside the props that belong to it, and the radius is the same accessor wherever it is read.
-/

namespace MapLayers.Channels

open LayerType (labelSetting visSetting)

/-- A sub-layer by its name. -/
def subLayer? (props : Props) (name : String) : Option PropValue :=
  Entries.get? (subLayers props) (.field name)

/-- The layer is drawn in icons. -/
abbrev HasMarkers (c : Context) : Prop :=
  (visSetting c.layer.config "customMarkers").truthy = true

/-- The first label of the layer names a field. -/
abbrev HasLabel (c : Context) : Prop := (labelSetting c.layer.config "field").truthy = true

variable {c : Context} {props next : Props} {key : String}

/-- A prop that is there is an accessor. -/
def IsAccessor (props : Props) (key : String) : Prop :=
  ∀ value, Entries.get? props key = some value → ∃ a : Accessor, value = .accessor a

theorem IsAccessor.present? (h : IsAccessor props key) :
    present? props key = Entries.get? props key := by
  unfold Channels.present?
  split
  · next value hvalue =>
    obtain ⟨a, rfl⟩ := h value hvalue
    rw [hvalue]
    rfl
  · next hnone => exact hnone.symm

/-- The props that markers and labels add or take over. -/
def drawnProps : List String := ["getIcon", "getIconSize", "_subLayerProps", "getPointRadius"]

/-- What holds until markers are resolved. -/
structure Undrawn (props : Props) : Prop where
  icon : Entries.get? props "getIcon" = none
  iconSize : Entries.get? props "getIconSize" = none
  layers : Entries.get? props "_subLayerProps" = none
  radius : IsAccessor props "getPointRadius"

namespace Undrawn

theorem nil : Undrawn [] := ⟨rfl, rfl, rfl, fun _ h => by simp at h⟩

theorem put (h : Undrawn props) (value : PropValue) (hkey : key ∉ drawnProps) :
    Undrawn (put props key value) := by
  simp only [drawnProps, List.mem_cons, List.not_mem_nil, or_false, not_or] at hkey
  obtain ⟨hicon, hsize, hlayers, hradius⟩ := hkey
  constructor
  · rw [get?_put_of_ne _ _ hicon, h.icon]
  · rw [get?_put_of_ne _ _ hsize, h.iconSize]
  · rw [get?_put_of_ne _ _ hlayers, h.layers]
  · intro found hfound
    rw [get?_put_of_ne _ _ hradius] at hfound
    exact h.radius found hfound

theorem putRadius (h : Undrawn props) (a : Accessor) :
    Undrawn (Channels.put props "getPointRadius" (.accessor a)) := by
  constructor
  · rw [get?_put_of_ne _ _ (by decide), h.icon]
  · rw [get?_put_of_ne _ _ (by decide), h.iconSize]
  · rw [get?_put_of_ne _ _ (by decide), h.layers]
  · intro found hfound
    rw [get?_put_self, Option.some.injEq] at hfound
    exact ⟨a, hfound.symm⟩

theorem withTextFace (h : Undrawn props) : Undrawn (withTextFace props) :=
  (((h.put _ (by decide)).put _ (by decide)).put _ (by decide)).put _ (by decide)

theorem of_resolves {channel : Channel} (h : Undrawn props) (hstep : Resolves channel props next) :
    Undrawn next := by
  obtain rfl | ⟨a, -, rfl⟩ := hstep
  · exact h
  · cases channel with
    | pointRadius => exact h.putRadius a
    | _ => exact h.put _ (by decide)

theorem color (h : Undrawn props) (hrun : color c props = .ok next) : Undrawn next := by
  unfold Channels.color at hrun
  split at hrun
  · have hscaled : Undrawn (putJson props "colorScaleType" (c.channel "colorScale")) :=
      h.put _ (by decide)
    obtain rfl | ⟨key, a, hkey, -, rfl⟩ := aggregatedColor_inv hrun
    · exact hscaled
    · apply hscaled.put
      rcases hkey with rfl | rfl <;> decide
  · exact h.of_resolves (fillColor_inv hrun)

theorem clusters (h : Undrawn props) (hrun : clusters c props = .ok next) : Undrawn next := by
  obtain ⟨hasText, level, radii, column, label, colored, -, -, hcolored, rfl⟩ := clusters_inv hrun
  have hstart : Undrawn (clusterStart props hasText level radii column) :=
    ((((h.put _ (by decide)).put _ (by decide)).put _ (by decide)).putRadius _).withTextFace.put _
      (by decide)
  have hlabel : Undrawn colored := by
    obtain ⟨color, -, hnext⟩ := clusterLabelColors_inv hcolored
    have hcolor : Undrawn (if color.isNull then clusterStart props hasText level radii column
        else putJson (clusterStart props hasText level radii column) "getTextColor" color) := by
      split
      · exact hstart
      · exact hstart.put _ (by decide)
    obtain rfl | ⟨outline, rfl⟩ := hnext
    · exact hcolor
    · exact hcolor.put _ (by decide)
  exact ((hlabel.put _ (by decide)).put _ (by decide)).put _ (by decide)

theorem typeSpecific (h : Undrawn props) (hrun : typeSpecific c props = .ok next) :
    Undrawn next := by
  unfold Channels.typeSpecific at hrun
  split at hrun
  · obtain rfl | ⟨column, rfl⟩ := pointAltitude_inv hrun
    · exact h
    · exact h.put _ (by decide)
  · split at hrun
    · exact h.clusters hrun
    · exact Except.ok.inj hrun ▸ h

end Undrawn

/-- What markers leave: icons with their sub-layer and their size, or none of them. -/
structure Marked (c : Context) (props : Props) : Prop where
  icon : (Entries.get? props "getIcon").isSome = true ↔ HasMarkers c
  iconSize : Entries.get? props "getIconSize" =
    if HasMarkers c then Entries.get? props "getPointRadius" else none
  iconLayer : (subLayer? props "points-icon").isSome = true ↔ HasMarkers c
  textLayer : subLayer? props "points-text" = none
  radius : IsAccessor props "getPointRadius"

theorem iconAngle_get? (h : iconAngle c props = .ok next) (hkey : key ≠ "getIconAngle") :
    Entries.get? next key = Entries.get? props key := by
  obtain rfl | ⟨a, -, rfl⟩ := iconAngle_inv h
  · rfl
  · exact get?_put_of_ne _ _ hkey.symm

theorem withIconColor_get? {masked : Bool} (hkey : key ≠ "getIconColor") :
    Entries.get? (withIconColor c masked props) key = Entries.get? props key := by
  unfold withIconColor
  split
  · split
    · exact get?_put_of_ne _ _ hkey.symm
    · rfl
  · rfl

theorem withIconSize_get? (hkey : key ≠ "getIconSize") :
    Entries.get? (withIconSize props) key = Entries.get? props key := by
  unfold withIconSize
  split
  · exact get?_put_of_ne _ _ hkey.symm
  · rfl

theorem withIconSize_size (hradius : IsAccessor props "getPointRadius")
    (hsize : Entries.get? props "getIconSize" = none) :
    Entries.get? (withIconSize props) "getIconSize" = Entries.get? props "getPointRadius" := by
  unfold withIconSize
  rw [hradius.present?]
  split
  · next radius hfound => rw [get?_put_self, hfound]
  · next hnone => rw [hnone, hsize]

/-- The icons of a layer all have the size that its settings allow for. -/
def HasIcons (c : Context) (icon : Accessor) (size : Int) : Prop :=
  Icon.largestSize c.layer.visConfig (.object c.layer.channels) = .ok size ∧
  ∃ range fallback masked, Accessor.forIcon (c.channel "customMarkersField") range fallback
    ⟨.int size, masked⟩ c.data = .ok icon

/-- Icons add their image and their sub-layer, and leave the radius alone that they take over. -/
theorem icons_adds (h : icons c props = .ok next) : ∃ (icon : Accessor) (size : Int),
    HasIcons c icon size ∧ Entries.get? next "getIcon" = some (.accessor icon) ∧
    subLayers next = [(.field "points-icon", iconLayerProps size)] ∧
    Entries.get? next "getPointRadius" = Entries.get? props "getPointRadius" ∧
    (IsAccessor props "getPointRadius" → Entries.get? props "getIconSize" = none →
      Entries.get? next "getIconSize" = Entries.get? props "getPointRadius") := by
  obtain ⟨size, filled, range, fallback, icon, hsize, -, hicon, hangle⟩ := icons_parts h
  have hcolored (key : String) (hkey : key ≠ "getIconColor") :
      Entries.get? (withIconColor c filled.truthy (iconStart props icon size)) key =
        Entries.get? (iconStart props icon size) key := withIconColor_get? hkey
  have hkept (key : String) (hsize : key ≠ "getIconSize") (hcolor : key ≠ "getIconColor")
      (hrotation : key ≠ "getIconAngle") :
      Entries.get? next key = Entries.get? (iconStart props icon size) key := by
    rw [iconAngle_get? hangle hrotation, withIconSize_get? hsize, hcolored key hcolor]
  have hstart (key : String) (hkey : key = "getPointRadius" ∨ key = "getIconSize") :
      Entries.get? (iconStart props icon size) key = Entries.get? props key := by
    rcases hkey with rfl | rfl <;> simp [iconStart, putText, get?_put_of_ne]
  refine ⟨icon, size, ⟨hsize, range, fallback, _, hicon⟩, ?_, ?_, ?_, fun hradius hsize => ?_⟩
  · rw [hkept _ (by decide) (by decide) (by decide), iconStart, get?_put_of_ne _ _ (by decide),
      get?_put_self]
  · rw [subLayers, hkept _ (by decide) (by decide) (by decide), iconStart, get?_put_self]
    rfl
  · rw [hkept _ (by decide) (by decide) (by decide), hstart _ (.inl rfl)]
  · have hsame := (hcolored "getPointRadius" (by decide)).trans (hstart _ (.inl rfl))
    have hnone := (hcolored "getIconSize" (by decide)).trans (hstart _ (.inr rfl))
    rw [iconAngle_get? hangle (by decide), withIconSize_size (fun value hvalue =>
      hradius value (hsame ▸ hvalue)) (hnone.trans hsize), hsame]

theorem Undrawn.icons (h : Undrawn props) (hmarkers : HasMarkers c)
    (hrun : icons c props = .ok next) : Marked c next := by
  obtain ⟨icon, size, -, hicon, hlayers, hradius, hsize⟩ := icons_adds hrun
  constructor
  · exact iff_of_true (by rw [hicon]; rfl) hmarkers
  · rw [hsize h.radius h.iconSize, hradius, if_pos hmarkers]
  · rw [subLayer?, hlayers]
    exact iff_of_true rfl hmarkers
  · rw [subLayer?, hlayers]
    rfl
  · intro value hvalue
    exact h.radius value (hradius ▸ hvalue)

theorem Undrawn.markers (h : Undrawn props) (hrun : markers c props = .ok next) :
    Marked c next := by
  obtain ⟨wanted, hwanted, ⟨htruthy, hicons⟩ | ⟨hfalsy, rfl⟩⟩ := markers_inv hrun
  · rw [eq_visSetting hwanted] at htruthy
    exact h.icons htruthy hicons
  · rw [eq_visSetting hwanted] at hfalsy
    have hnone : ¬HasMarkers c := by simp [HasMarkers, hfalsy]
    have hplain : Undrawn (withPlainMarks c props) := by
      unfold withPlainMarks
      split
      · exact h.put _ (by decide)
      · exact h
    constructor
    · simp [hplain.icon, hnone]
    · rw [hplain.iconSize, if_neg hnone]
    · simp [subLayer?, subLayers, hplain.layers, hnone]
    · simp [subLayer?, subLayers, hplain.layers]
    · exact hplain.radius

/-- What labels find of markers, and leave as it is. -/
def markedProps : List String := ["getIcon", "getIconSize", "getPointRadius", "_subLayerProps"]

theorem labelStart_get? {label : Json} {set : Props} (text : Accessor)
    (hset : labelSettings label labelProps props = .ok set) (hkey : key ∈ markedProps) :
    Entries.get? (labelStart set text) key = Entries.get? props key := by
  simp only [markedProps, List.mem_cons, List.not_mem_nil, or_false] at hkey
  have hkept := (labelSettings_spec (by decide) hset).1 key
  rcases hkey with rfl | rfl | rfl | rfl <;>
  · rw [← hkept (by decide)]
    simp [labelStart, Channels.withTextFace, putText, get?_put_of_ne]

/-- The sub-layer of texts keeps the radius as its room, or else has a scale. -/
def KeepsRoom (props : Props) (texts : PropValue) : Prop :=
  Entries.get? texts.fields (.field "getRadius") = Entries.get? props "getPointRadius" ∧
  ((Entries.get? texts.fields (.field "radiusScale")).isSome = true ↔
    Entries.get? texts.fields (.field "getRadius") = none)

theorem secondaryLabel_keepsNoRoom {label : Json} {second : List (PropKey × PropValue)}
    (h : secondaryLabel c label = .ok second) :
    Entries.get? second (.field "getRadius") = none ∧
    Entries.get? second (.field "radiusScale") = none := by
  obtain rfl | ⟨text, color, size, outline, -, rfl⟩ := secondaryLabel_inv h
  · exact ⟨rfl, rfl⟩
  · exact ⟨rfl, rfl⟩

theorem textLayerProps_keepsRoom {label : Json} {room : PropKey × PropValue}
    {second : List (PropKey × PropValue)} (hradius : IsAccessor props "getPointRadius")
    (hroom : labelRoom c props = .ok room) (hsecond : secondaryLabel c label = .ok second) :
    KeepsRoom props (textLayerProps c room second) := by
  obtain ⟨hsecondRadius, hsecondScale⟩ := secondaryLabel_keepsNoRoom hsecond
  rcases labelRoom_inv hroom with ⟨radius, hfound, rfl⟩ | ⟨hnone, scale, rfl⟩
  · rw [hradius.present?] at hfound
    have hscale : Entries.get? (textLayerProps c (.field "getRadius", radius) second).fields
        (.field "radiusScale") = none := hsecondScale
    exact ⟨hfound.symm, by rw [hscale]; exact iff_of_false (by decide) (by exact nofun)⟩
  · rw [hradius.present?] at hnone
    have hroomRadius : Entries.get? (textLayerProps c (.field "radiusScale", .ofJson scale)
        second).fields (.field "getRadius") = none := hsecondRadius
    exact ⟨hroomRadius.trans hnone.symm, iff_of_true rfl hroomRadius⟩

theorem KeepsRoom.congr {props' : Props} {texts : PropValue} (h : KeepsRoom props texts)
    (hradius : Entries.get? props' "getPointRadius" = Entries.get? props "getPointRadius") :
    KeepsRoom props' texts :=
  ⟨h.1.trans hradius.symm, h.2⟩

theorem mainLabel_adds {main secondary : Json} (hradius : IsAccessor props "getPointRadius")
    (h : mainLabel c main secondary props = .ok next) : ∃ texts,
    (∀ key ∈ markedProps, key ≠ "_subLayerProps" →
      Entries.get? next key = Entries.get? props key) ∧
    subLayers next = Entries.set (subLayers props) (.field "points-text") texts ∧
    KeepsRoom props texts := by
  obtain ⟨set, text, room, second, hset, -, hroom, hsecond, rfl⟩ := mainLabel_inv h
  have hstart (key : String) (hkey : key ∈ markedProps) := labelStart_get? text hset hkey
  refine ⟨textLayerProps c room second, fun key hkey hother => ?_, ?_, ?_⟩
  · rw [get?_put_of_ne _ _ hother.symm, hstart key hkey]
  · have hlayers : subLayers (labelStart set text) = subLayers props := by
      rw [subLayers, hstart _ (by decide), subLayers]
    rw [← hlayers, subLayers, get?_put_self]
    rfl
  · have hsame := hstart "getPointRadius" (by decide)
    refine KeepsRoom.congr (textLayerProps_keepsRoom ?_ hroom hsecond) hsame.symm
    intro value hvalue
    exact hradius value (hsame ▸ hvalue)

theorem labels_iconLayer (hradius : IsAccessor props "getPointRadius")
    (h : labels c props = .ok next) :
    subLayer? next "points-icon" = subLayer? props "points-icon" := by
  rcases labels_cases h with ⟨-, rfl⟩ | ⟨-, main, secondary, -, hmain⟩
  · rfl
  · obtain ⟨texts, -, hlayers, -⟩ := mainLabel_adds hradius hmain
    rw [subLayer?, hlayers, Entries.get?_set, if_neg (by decide), subLayer?]

/-- How the sub-layers of a layer fit its settings and its other props. -/
structure SubLayersFit (c : Context) (props : Props) : Prop where
  icon : (Entries.get? props "getIcon").isSome = true ↔ HasMarkers c
  iconLayer : (subLayer? props "points-icon").isSome = true ↔ HasMarkers c
  iconType : (∃ rest, Entries.get? props "pointType" = some (.text ("icon" ++ rest))) ↔ HasMarkers c
  textLayer : (subLayer? props "points-text").isSome = true ↔ HasLabel c
  textType : HasLabel c →
    ∃ start, Entries.get? props "pointType" = some (.text (start ++ "+text"))
  room : ∀ texts, subLayer? props "points-text" = some texts → KeepsRoom props texts
  radius : IsAccessor props "getPointRadius"
  iconSize : Entries.get? props "getIconSize" =
    if HasMarkers c then Entries.get? props "getPointRadius" else none

/-- Without markers, points are circles, if anything is said about them. -/
theorem labelType_circle (hmarkers : ¬HasMarkers c) :
    ∀ type, labelType c (markerType c (clusterType c none)) = some type →
      ∃ rest, type = "circle" ++ rest := by
  have hbefore : ∀ type, markerType c (clusterType c none) = some type →
      ∃ rest, type = "circle" ++ rest := by
    intro type htype
    rw [markerType, if_neg hmarkers] at htype
    split at htype
    · exact ⟨"", (Option.some.inj htype).symm⟩
    · unfold clusterType at htype
      split at htype
      · split at htype
        · exact ⟨"+text", (Option.some.inj htype).symm⟩
        · exact ⟨"", (Option.some.inj htype).symm⟩
      · simp at htype
  intro type htype
  unfold labelType at htype
  split at htype
  · rw [← Option.some.inj htype]
    cases hmarked : markerType c (clusterType c none) with
    | none => exact ⟨"+text", rfl⟩
    | some old =>
      obtain ⟨rest, rfl⟩ := hbefore old hmarked
      exact ⟨rest ++ "+text", String.append_assoc⟩
  · exact hbefore type htype

theorem icon_ne_circle (rest other : String) : "icon" ++ rest ≠ "circle" ++ other := by
  intro h
  have hletters := congrArg String.toList h
  simp at hletters

theorem pointType_icon_iff (h : resolve c = .ok props) :
    (∃ rest, Entries.get? props "pointType" = some (.text ("icon" ++ rest))) ↔ HasMarkers c := by
  have htype := resolve_pointType h
  constructor
  · rintro ⟨rest, hrest⟩
    refine Decidable.byContradiction fun hmarkers => ?_
    rw [htype] at hrest
    obtain ⟨type, hfound, htext⟩ := Option.map_eq_some_iff.mp hrest
    obtain ⟨other, rfl⟩ := labelType_circle hmarkers type hfound
    exact icon_ne_circle rest other (PropValue.text.inj htext).symm
  · intro hmarkers
    have hmarked : markerType c (clusterType c none) = some "icon" := if_pos hmarkers
    rw [htype, hmarked, labelType]
    split
    · exact ⟨"+text", rfl⟩
    · exact ⟨"", rfl⟩

theorem Marked.labels (h : Marked c props) (hrun : labels c props = .ok next)
    (hicon : (∃ rest, Entries.get? next "pointType" = some (.text ("icon" ++ rest))) ↔ HasMarkers c)
    (htext : HasLabel c →
      ∃ start, Entries.get? next "pointType" = some (.text (start ++ "+text"))) :
    SubLayersFit c next := by
  rcases labels_cases hrun with ⟨hfalsy, rfl⟩ | ⟨htruthy, main, secondary, -, hmain⟩
  · have hnone : ¬HasLabel c := by simp [HasLabel, hfalsy]
    exact
      { icon := h.icon
        iconLayer := h.iconLayer
        iconType := hicon
        textLayer := by simp [h.textLayer, hnone]
        textType := htext
        room := fun texts hfound => by simp [h.textLayer] at hfound
        radius := h.radius
        iconSize := h.iconSize }
  · obtain ⟨texts, hkept, hlayers, hroom⟩ := mainLabel_adds h.radius hmain
    have hradius := hkept "getPointRadius" (by decide) (by decide)
    have hadded : subLayer? next "points-text" = some texts := by
      rw [subLayer?, hlayers, Entries.get?_set, if_pos (by decide)]
    exact
      { icon := by rw [hkept _ (by decide) (by decide), h.icon]
        iconLayer := by rw [labels_iconLayer h.radius hrun, h.iconLayer]
        iconType := hicon
        textLayer := by rw [hadded]; exact iff_of_true rfl htruthy
        textType := htext
        room := fun found hfound => by
          rw [hadded, Option.some.injEq] at hfound
          exact hfound ▸ hroom.congr hradius
        radius := fun value hvalue => h.radius value (hradius ▸ hvalue)
        iconSize := by rw [hkept _ (by decide) (by decide), h.iconSize, hradius] }

/-- The radius of a layer that a column drives. -/
def HasRadius (c : Context) (props : Props) : Prop :=
  (c.firstChannel "radiusField" "sizeField").truthy = true → ∃ aggregation range a,
    c.firstVis "radiusRange" "sizeRange" = .ok range ∧
    Accessor.forSize .pointRadius ⟨c.firstChannel "radiusField" "sizeField",
      c.firstChannel "radiusScale" "sizeScale", aggregation, range⟩ c.data = .ok a ∧
    Entries.get? props "getPointRadius" = some (.accessor a)

theorem pointRadius_hasRadius (h : pointRadius c props = .ok next) : HasRadius c next := by
  intro hfield
  unfold pointRadius at h
  dsimp only at h
  rw [if_neg (by rw [hfield]; decide)] at h
  simp only [Result.bind_eq_ok_iff, Result.pure_eq_ok_iff] at h
  obtain ⟨aggregation, -, range, hrange, a, ha, rfl⟩ := h
  exact ⟨aggregation, range, a, hrange, ha, get?_put_self _ _ _⟩

theorem HasRadius.of_resolves {channel : Channel} (h : HasRadius c props)
    (hhome : channel.home ≠ "getPointRadius") (hstep : Resolves channel props next) :
    HasRadius c next := by
  obtain rfl | ⟨a, -, rfl⟩ := hstep
  · exact h
  · intro hfield
    obtain ⟨aggregation, range, radius, hrange, hradius, hfound⟩ := h hfield
    refine ⟨aggregation, range, radius, hrange, hradius, ?_⟩
    rw [get?_put_of_ne _ _ hhome]
    exact hfound

theorem resolve_undrawn (h : resolve c = .ok props) : ∃ undrawn marked,
    (steps.take 6).foldlM (fun props step => step c props) [] = .ok undrawn ∧
    Undrawn undrawn ∧ HasRadius c undrawn ∧ markers c undrawn = .ok marked ∧
    labels c marked = .ok props := by
  obtain ⟨colored, typed, sized, stroked, raised, weighted, marked, hcolored, htyped, hsized,
    hstroked, hraised, hweighted, hmarked, hlabelled⟩ := resolve_inv h
  have htype : Undrawn typed := (Undrawn.nil.color hcolored).typeSpecific htyped
  have hsizes : Undrawn stroked :=
    (htype.of_resolves (pointRadius_inv hsized)).of_resolves (strokeColor_inv hstroked)
  have hradius := (((pointRadius_hasRadius hsized).of_resolves (by decide)
    (strokeColor_inv hstroked)).of_resolves (by decide) (height_inv hraised)).of_resolves
      (by decide) (weight_inv hweighted)
  refine ⟨weighted, marked, ?_,
    (hsizes.of_resolves (height_inv hraised)).of_resolves (weight_inv hweighted), hradius, hmarked,
    hlabelled⟩
  simp only [steps, List.take, List.foldlM_cons, List.foldlM_nil, hcolored, htyped, hsized,
    hstroked, hraised, hweighted, Result.ok_bind]
  rfl

theorem resolve_marked (h : resolve c = .ok props) : ∃ marked,
    steps.dropLast.foldlM (fun props step => step c props) [] = .ok marked ∧ Marked c marked ∧
    labels c marked = .ok props := by
  obtain ⟨undrawn, marked, hrun, hundrawn, -, hmarked, hlabels⟩ := resolve_undrawn h
  refine ⟨marked, ?_, hundrawn.markers hmarked, hlabels⟩
  have hsteps : steps.dropLast = steps.take 6 ++ [markers] := rfl
  rw [hsteps, List.foldlM_append, hrun, Result.ok_bind, List.foldlM_cons, hmarked]
  rfl

/-- The sub-layers of a layer fit its settings and its other props, and its labels leave the sub-layer of
its icons as they find it. -/
theorem resolve_subLayers (h : resolve c = .ok props) :
    SubLayersFit c props ∧
    ∃ marked, steps.dropLast.foldlM (fun props step => step c props) [] = .ok marked ∧
      labels c marked = .ok props ∧
      subLayer? props "points-icon" = subLayer? marked "points-icon" := by
  obtain ⟨marked, hrun, hmarked, hlabels⟩ := resolve_marked h
  have htext (hlabel : HasLabel c) :
      ∃ start, Entries.get? props "pointType" = some (.text (start ++ "+text")) := by
    rw [resolve_pointType h, labelType, if_pos hlabel]
    exact ⟨_, rfl⟩
  exact ⟨hmarked.labels hlabels (pointType_icon_iff h) htext, marked, hrun, hlabels,
    labels_iconLayer hmarked.radius hlabels⟩

theorem resolve_subLayers_icons : ∃ props, resolve (labelledCluster true) = .ok props ∧
    SubLayersFit (labelledCluster true) props ∧
    ∃ marked, steps.dropLast.foldlM (fun props step => step (labelledCluster true) props) [] =
        .ok marked ∧
      labels (labelledCluster true) marked = .ok props ∧
      subLayer? props "points-icon" = subLayer? marked "points-icon" := by
  obtain ⟨props, hprops⟩ : ∃ props, resolve (labelledCluster true) = .ok props := ⟨_, rfl⟩
  exact ⟨props, hprops, resolve_subLayers hprops⟩

end MapLayers.Channels
