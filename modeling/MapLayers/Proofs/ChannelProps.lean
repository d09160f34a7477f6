import MapLayers.Proofs.ChannelSteps
import MapLayers.Proofs.StyleProps

/-!
# What the channel steps write

Every step sets props of one list. Colors of the geometry are always set to accessors, and the text
color only ever to the authored color of the first label, and only where that label is drawn.
-/

namespace MapLayers.Channels

open Entries (Reaches)
open LayerType (labelSetting)
open PropTable (select)

/-- The props that channels write whatever their values. -/
def plainProps : List String :=
  ["colorScaleType", "getColorWeight", "getColorValue", "dataTransform", "pointType",
    "clusterLevel", "getWeight", "getPointRadius", "textCharacterSet", "textFontFamily",
    "textFontSettings", "textFontWeight", "getText", "textOutlineColor", "textOutlineWidth",
    "textSizeUnits", "getTextSize", "getElevation", "getIcon", "_subLayerProps", "getIconColor",
    "getIconSize", "getIconAngle", "getTextAlignmentBaseline", "getTextAnchor", "textSizeScale"]

/-- Clusters always draw their first label, other layers do if it names a field. -/
def DrawsLabel (layer : Layer) : Prop :=
  layer.type = "clusterTile" ∨ (labelSetting layer.config "field").truthy = true

/-- What all channel steps keep to. -/
inductive Written (layer : Layer) : String → PropValue → Prop
  | plain {prop : String} (value : PropValue) : prop ∈ plainProps → Written layer prop value
  | fillColor (accessor : Accessor) : Written layer "getFillColor" (.accessor accessor)
  | lineColor (accessor : Accessor) : Written layer "getLineColor" (.accessor accessor)
  | textColor : DrawsLabel layer →
    Written layer "getTextColor" (.ofJson (labelSetting layer.config "color"))

/-- All props that channels write. -/
def channelProps : List String :=
  ["getFillColor", "getLineColor", "getTextColor"] ++ plainProps

theorem Written.known {layer : Layer} {prop : String} {value : PropValue}
    (h : Written layer prop value) : prop ∈ channelProps := by
  cases h with
  | plain _ hplain => exact List.mem_append_right _ hplain
  | _ => simp [channelProps]

/-- The only color that channels write as a list is that of a drawn label. -/
theorem Written.of_list {layer : Layer} {prop : String} {values : List PropValue}
    (h : Written layer prop (.list values)) (hprop : prop ∉ plainProps) :
    prop = "getTextColor" ∧ DrawsLabel layer ∧
      PropValue.list values = .ofJson (labelSetting layer.config "color") := by
  generalize hvalue : PropValue.list values = value at h
  cases h with
  | plain _ hplain => exact absurd hplain hprop
  | textColor hdraws => exact ⟨rfl, hdraws, rfl⟩
  | _ => simp at hvalue

variable {c : Context} {start props next : Props}

theorem put_reaches (h : Reaches (Written c.layer) start props) {prop : String} (value : PropValue)
    (hprop : prop ∈ plainProps) : Reaches (Written c.layer) start (put props prop value) :=
  h.set (.plain value hprop)

theorem withTextFace_reaches (h : Reaches (Written c.layer) start props) :
    Reaches (Written c.layer) start (withTextFace props) := by
  unfold withTextFace
  exact put_reaches (put_reaches (put_reaches (put_reaches h _ (by decide)) _ (by decide)) _
    (by decide)) _ (by decide)

/-- A step that resolves a channel writes its accessor, or nothing. -/
theorem Resolves.reaches {channel : Channel} (h : Resolves channel props next)
    (hwritten : ∀ a, Written c.layer channel.home (.accessor a)) :
    Reaches (Written c.layer) props next := by
  obtain rfl | ⟨a, -, rfl⟩ := h
  · exact .start
  · exact .set .start (hwritten a)

theorem aggregatedColor_reaches (h : aggregatedColor c props = .ok next) :
    Reaches (Written c.layer) props next := by
  have hscale : Reaches (Written c.layer) props
      (putJson props "colorScaleType" (c.channel "colorScale")) :=
    put_reaches .start _ (by decide)
  obtain rfl | ⟨key, a, hkey, -, rfl⟩ := aggregatedColor_inv h
  · exact hscale
  · refine put_reaches hscale _ ?_
    rcases hkey with rfl | rfl <;> decide

theorem color_reaches (h : color c props = .ok next) : Reaches (Written c.layer) props next := by
  unfold color at h
  split at h
  · exact aggregatedColor_reaches h
  · exact (fillColor_inv h).reaches .fillColor

theorem strokeColor_reaches (h : strokeColor c props = .ok next) :
    Reaches (Written c.layer) props next :=
  (strokeColor_inv h).reaches .lineColor

theorem pointRadius_reaches (h : pointRadius c props = .ok next) :
    Reaches (Written c.layer) props next :=
  (pointRadius_inv h).reaches fun _ => .plain _ (by decide)

theorem height_reaches (h : height c props = .ok next) : Reaches (Written c.layer) props next :=
  (height_inv h).reaches fun _ => .plain _ (by decide)

theorem weight_reaches (h : weight c props = .ok next) : Reaches (Written c.layer) props next :=
  (weight_inv h).reaches fun _ => .plain _ (by decide)

theorem iconAngle_reaches (h : iconAngle c props = .ok next) :
    Reaches (Written c.layer) props next := by
  obtain rfl | ⟨a, -, rfl⟩ := iconAngle_inv h
  · exact .start
  · exact put_reaches .start _ (by decide)

theorem withIconColor_reaches (masked : Bool) :
    Reaches (Written c.layer) props (withIconColor c masked props) := by
  unfold withIconColor
  split
  · split
    · exact put_reaches .start _ (by decide)
    · exact .start
  · exact .start

theorem withIconSize_reaches : Reaches (Written c.layer) props (withIconSize props) := by
  unfold withIconSize
  split
  · exact put_reaches .start _ (by decide)
  · exact .start

theorem icons_reaches (h : icons c props = .ok next) : Reaches (Written c.layer) props next := by
  obtain ⟨size, filled, icon, -, -, hangle⟩ := icons_inv h
  have hstart : Reaches (Written c.layer) props (iconStart props icon size) :=
    put_reaches (put_reaches (put_reaches .start _ (by decide)) _ (by decide)) _ (by decide)
  exact hstart.trans <| (withIconColor_reaches filled.truthy).trans <|
    withIconSize_reaches.trans (iconAngle_reaches hangle)

theorem markers_reaches (h : markers c props = .ok next) :
    Reaches (Written c.layer) props next := by
  obtain ⟨wanted, -, ⟨-, hicons⟩ | ⟨-, rfl⟩⟩ := markers_inv h
  · exact icons_reaches hicons
  · unfold withPlainMarks
    split
    · exact put_reaches .start _ (by decide)
    · exact .start

theorem eq_select_of_lookup {label value : Json} {key : String}
    (h : label.lookup key = .ok value) : value = select label (.field key) := by
  cases label with
  | object fields => exact (Except.ok.inj h).symm
  | _ => simp [Json.lookup] at h

theorem select_of_falsy {labels : Json} (h : labels.truthy = false) :
    select labels (.position 0) = .null := by
  cases labels with
  | list items =>
    cases items with
    | nil => rfl
    | cons item rest => simp [Json.truthy] at h
  | _ => rfl

/-- The channels read the settings of the first label where the tables read them. -/
theorem firstLabel_lookup {labels label value : Json} {key : String}
    (h : firstLabel labels = .ok label) (hvalue : label.lookup key = .ok value) :
    value = select (select labels (.position 0)) (.field key) := by
  unfold firstLabel at h
  split at h
  · unfold Json.item Json.select at h
    cases labels with
    | list items =>
      have hfirst : select (.list items) (.position 0) = label := by
        show (Json.itemAt items 0).toOption.getD .null = label
        rw [show Json.itemAt items 0 = .ok label from h]
        rfl
      rw [eq_select_of_lookup hvalue, hfirst]
    | text s => exact absurd hvalue (Json.lookup_letter (Json.mem_of_itemAt h))
    | _ => simp at h
  · next hfalsy =>
    rw [select_of_falsy (by simpa using hfalsy)]
    rw [← Except.ok.inj h] at hvalue
    exact (Except.ok.inj hvalue).symm

theorem elements_lookup {labels main value : Json} {all others : List Json} {key : String}
    (hall : labels.elements = .ok all) (hmain : all.take maxLabels = main :: others)
    (hvalue : main.lookup key = .ok value) :
    value = select (select labels (.position 0)) (.field key) := by
  have hmem : main ∈ all := List.mem_of_mem_take (hmain ▸ List.mem_cons_self)
  cases labels with
  | list items =>
    rw [Json.elements, Except.ok.injEq] at hall
    subst hall
    cases items with
    | nil => simp at hmain
    | cons item rest =>
      rw [maxLabels, List.take_succ_cons] at hmain
      rw [eq_select_of_lookup hvalue, ← (List.cons.inj hmain).1]
      rfl
  | text s =>
    rw [Json.elements, Except.ok.injEq] at hall
    exact absurd hvalue (Json.lookup_letter (hall ▸ hmem))
  | object fields =>
    rw [Json.elements, Except.ok.injEq] at hall
    obtain ⟨entry, -, rfl⟩ := List.mem_map.mp (hall ▸ hmem)
    simp [Json.lookup] at hvalue
  | _ => simp [Json.elements] at hall

theorem select_of_take_nil {labels : Json} {all : List Json} (hall : labels.elements = .ok all)
    (hempty : all.take maxLabels = []) : select labels (.position 0) = .null := by
  cases labels with
  | list items =>
    rw [Json.elements, Except.ok.injEq] at hall
    subst hall
    cases items with
    | nil => rfl
    | cons item rest => simp [maxLabels] at hempty
  | _ => rfl

theorem labelSettings_spec {label : Json} {settings : List (String × String)}
    (hnodup : (settings.map Prod.snd).Nodup) (h : labelSettings label settings props = .ok next) :
    (∀ prop, prop ∉ settings.map Prod.snd → Entries.get? next prop = Entries.get? props prop) ∧
    (∀ entry ∈ settings, ∃ value, label.lookup entry.1 = .ok value ∧
      (value.isNull = false → Entries.get? next entry.2 = some (.ofJson value))) := by
  induction settings generalizing props with
  | nil =>
    rw [labelSettings, Except.ok.injEq] at h
    subst h
    exact ⟨fun _ _ => rfl, fun entry hentry => by simp at hentry⟩
  | cons first rest ih =>
    rw [labelSettings, Result.bind_eq_ok_iff] at h
    obtain ⟨value, hvalue, h⟩ := h
    rw [List.map_cons, List.nodup_cons] at hnodup
    obtain ⟨hkeep, hrest⟩ := ih hnodup.2 h
    constructor
    · intro prop hprop
      rw [List.map_cons, List.mem_cons, not_or] at hprop
      rw [hkeep prop hprop.2]
      split
      · rfl
      · exact Entries.get?_set_of_ne _ _ (Ne.symm hprop.1)
    · intro entry hentry
      rcases List.mem_cons.mp hentry with rfl | hentry
      · refine ⟨value, hvalue, fun hnull => ?_⟩
        rw [hkeep _ hnodup.1, hnull]
        exact Entries.get?_set_self _ _ _
      · exact hrest entry hentry

theorem labelSettings_reaches {label : Json} {settings : List (String × String)}
    (hsettings : ∀ entry ∈ settings, ∀ value, label.lookup entry.1 = .ok value →
      Written c.layer entry.2 (.ofJson value))
    (h : labelSettings label settings props = .ok next) :
    Reaches (Written c.layer) props next := by
  induction settings generalizing props with
  | nil =>
    rw [labelSettings, Except.ok.injEq] at h
    exact h ▸ .start
  | cons first rest ih =>
    rw [labelSettings, Result.bind_eq_ok_iff] at h
    obtain ⟨value, hvalue, h⟩ := h
    have hrest := ih (fun entry hentry => hsettings entry (List.mem_cons_of_mem _ hentry)) h
    refine Reaches.trans ?_ hrest
    split
    · exact .start
    · exact .set .start (hsettings first (by simp) value hvalue)

/-- The authored text color stands among the props. -/
def HasTextColor (layer : Layer) (props : Props) : Prop :=
  Entries.get? props "getTextColor" = some (.ofJson (labelSetting layer.config "color"))

/-- Nothing else takes the place of the authored text color. -/
theorem HasTextColor.of_reaches {layer : Layer} (h : HasTextColor layer start)
    (hreaches : Reaches (Written layer) start props) : HasTextColor layer props := by
  rcases hreaches.get? "getTextColor" with hsame | ⟨value, hvalue, hwritten⟩
  · exact hsame.trans h
  · rw [HasTextColor, hvalue]
    generalize hprop : "getTextColor" = prop at hwritten
    cases hwritten with
    | plain _ hplain => exact absurd (hprop ▸ hplain) (by decide)
    | textColor _ => rfl
    | _ => simp at hprop

theorem mainLabel_spec {main secondary : Json} (hdraws : DrawsLabel c.layer)
    (hmain : ∀ key value, main.lookup key = .ok value → value = labelSetting c.layer.config key)
    (h : mainLabel c main secondary props = .ok next) :
    Reaches (Written c.layer) props next ∧
    ((labelSetting c.layer.config "color").isNull = false → HasTextColor c.layer next) := by
  obtain ⟨middle, text, room, second, hmiddle, -, -, -, rfl⟩ := mainLabel_inv h
  have hsettings : Reaches (Written c.layer) props middle := by
    refine labelSettings_reaches (fun entry hentry value hvalue => ?_) hmiddle
    rw [hmain _ _ hvalue]
    simp only [labelProps, List.mem_cons, List.not_mem_nil, or_false] at hentry
    rcases hentry with rfl | rfl | rfl | rfl | rfl
    · exact .plain _ (by decide)
    · exact .plain _ (by decide)
    · exact .textColor hdraws
    · exact .plain _ (by decide)
    · exact .plain _ (by decide)
  have hdrawn : Reaches (Written c.layer) middle (labelStart middle text) :=
    put_reaches (withTextFace_reaches (put_reaches (put_reaches .start _ (by decide)) _
      (by decide))) _ (by decide)
  have hstart : (labelSetting c.layer.config "color").isNull = false →
      HasTextColor c.layer middle := by
    obtain ⟨value, hvalue, hset⟩ :=
      (labelSettings_spec (by decide) hmiddle).2 ("color", "getTextColor") (by simp [labelProps])
    rw [hmain _ _ hvalue] at hset
    exact hset
  exact ⟨hsettings.trans (put_reaches hdrawn _ (by decide)),
    fun hcolor => (hstart hcolor).of_reaches (put_reaches hdrawn _ (by decide))⟩

/-- The first label is drawn exactly if it names a field. -/
theorem labels_cases (h : labels c props = .ok next) :
    ((labelSetting c.layer.config "field").truthy = false ∧ next = props) ∨
    ((labelSetting c.layer.config "field").truthy = true ∧ ∃ main secondary,
      (∀ key value, main.lookup key = .ok value → value = labelSetting c.layer.config key) ∧
      mainLabel c main secondary props = .ok next) := by
  have hnone : select (c.setting "textLabel") (.position 0) = .null →
      (labelSetting c.layer.config "field").truthy = false := by
    intro hlabel
    unfold labelSetting
    rw [show select (Json.fieldOf c.layer.config "textLabel") (.position 0) = .null from hlabel]
    rfl
  unfold labels at h
  dsimp only at h
  split at h
  · rw [Result.bind_eq_ok_iff] at h
    obtain ⟨all, hall, h⟩ := h
    split at h
    · next hempty =>
      rw [Result.pure_eq_ok_iff] at h
      exact .inl ⟨hnone (select_of_take_nil hall hempty), h.symm⟩
    · next main others hmain =>
      rw [Result.bind_eq_ok_iff] at h
      obtain ⟨field, hfield, h⟩ := h
      have hread : ∀ key value, main.lookup key = .ok value →
          value = labelSetting c.layer.config key :=
        fun key value hvalue => elements_lookup hall hmain hvalue
      rw [hread _ _ hfield] at h
      split at h
      · next hfalsy =>
        rw [Result.pure_eq_ok_iff] at h
        exact .inl ⟨by simpa using hfalsy, h.symm⟩
      · next htruthy => exact .inr ⟨by simpa using htruthy, main, _, hread, h⟩
  · next hfalsy =>
    simp only [Result.bind_eq_ok_iff, Result.pure_eq_ok_iff] at h
    obtain ⟨all, rfl, h⟩ := h
    rw [show List.take maxLabels ([] : List Json) = [] from rfl] at h
    rw [Result.pure_eq_ok_iff] at h
    exact .inl ⟨hnone (select_of_falsy (by simpa using hfalsy)), h.symm⟩

theorem labels_spec (h : labels c props = .ok next) :
    Reaches (Written c.layer) props next ∧
    ((labelSetting c.layer.config "field").truthy = true →
      (labelSetting c.layer.config "color").isNull = false → HasTextColor c.layer next) := by
  rcases labels_cases h with ⟨hfalsy, rfl⟩ | ⟨htruthy, main, secondary, hread, hmain⟩
  · refine ⟨.start, fun htruthy => ?_⟩
    rw [hfalsy] at htruthy
    exact absurd htruthy (by decide)
  · obtain ⟨hreaches, hcolor⟩ := mainLabel_spec (.inr htruthy) hread hmain
    exact ⟨hreaches, fun _ => hcolor⟩

theorem pointAltitude_reaches (h : pointAltitude c props = .ok next) :
    Reaches (Written c.layer) props next := by
  obtain rfl | ⟨column, rfl⟩ := pointAltitude_inv h
  · exact .start
  · exact put_reaches .start _ (by decide)

theorem clusterLabelColors_spec {label : Json} (htype : c.layer.type = "clusterTile")
    (hlabel : firstLabel (c.setting "textLabel") = .ok label)
    (h : clusterLabelColors label props = .ok next) :
    Reaches (Written c.layer) props next ∧
    ((labelSetting c.layer.config "color").isNull = false → HasTextColor c.layer next) := by
  obtain ⟨color, hcolor, hnext⟩ := clusterLabelColors_inv h
  rw [show color = labelSetting c.layer.config "color" from firstLabel_lookup hlabel hcolor] at hnext
  generalize hcolored : (if (labelSetting c.layer.config "color").isNull then props
    else putJson props "getTextColor" (labelSetting c.layer.config "color")) = colored at hnext
  have hreaches : Reaches (Written c.layer) props colored := by
    rw [← hcolored]
    split
    · exact .start
    · exact .set .start (.textColor (.inl htype))
  have htext : (labelSetting c.layer.config "color").isNull = false →
      HasTextColor c.layer colored := by
    intro hnull
    rw [← hcolored, hnull]
    exact Entries.get?_set_self _ _ _
  obtain rfl | ⟨outline, rfl⟩ := hnext
  · exact ⟨hreaches, htext⟩
  · have houtline : Reaches (Written c.layer) colored
        (putJson colored "textOutlineColor" outline) :=
      put_reaches .start _ (by decide)
    exact ⟨hreaches.trans houtline, fun hnull => (htext hnull).of_reaches houtline⟩

theorem clusters_spec (htype : c.layer.type = "clusterTile") (h : clusters c props = .ok next) :
    Reaches (Written c.layer) props next ∧
    ((labelSetting c.layer.config "color").isNull = false → HasTextColor c.layer next) := by
  obtain ⟨hasText, level, radii, column, label, colored, -, hlabel, hcolored, rfl⟩ := clusters_inv h
  obtain ⟨hcolors, htext⟩ := clusterLabelColors_spec htype hlabel hcolored
  have hstart : Reaches (Written c.layer) props (clusterStart props hasText level radii column) := by
    refine put_reaches (withTextFace_reaches ?_) _ (by decide)
    exact put_reaches (put_reaches (put_reaches (put_reaches .start _ (by decide)) _ (by decide)) _
      (by decide)) _ (by decide)
  have hfinish : Reaches (Written c.layer) colored (clusterEnd colored radii column) :=
    put_reaches (put_reaches (put_reaches .start _ (by decide)) _ (by decide)) _ (by decide)
  exact ⟨(hstart.trans hcolors).trans hfinish, fun hnull => (htext hnull).of_reaches hfinish⟩

theorem typeSpecific_spec (h : typeSpecific c props = .ok next) :
    Reaches (Written c.layer) props next ∧
    (c.layer.type = "clusterTile" → (labelSetting c.layer.config "color").isNull = false →
      HasTextColor c.layer next) := by
  unfold typeSpecific at h
  split at h
  · next hpoint =>
    refine ⟨pointAltitude_reaches h, fun hcluster => ?_⟩
    rw [hpoint] at hcluster
    exact absurd hcluster (by decide)
  · split at h
    · next hcluster =>
      obtain ⟨hreaches, htext⟩ := clusters_spec hcluster h
      exact ⟨hreaches, fun _ => htext⟩
    · next hother =>
      rw [Except.ok.injEq] at h
      exact ⟨h ▸ .start, fun hcluster => absurd hcluster hother⟩

/-- Whatever the channels of a layer are, they write nothing else. -/
theorem resolve_reaches (h : resolve c = .ok props) : Reaches (Written c.layer) [] props := by
  refine Result.foldlM_induction (motive := Reaches (Written c.layer) []) ?_ .start h
  intro step hstep before after hrun hbefore
  refine hbefore.trans ?_
  simp only [steps, List.mem_cons, List.not_mem_nil, or_false] at hstep
  rcases hstep with rfl | rfl | rfl | rfl | rfl | rfl | rfl | rfl
  · exact color_reaches hrun
  · exact (typeSpecific_spec hrun).1
  · exact pointRadius_reaches hrun
  · exact strokeColor_reaches hrun
  · exact height_reaches hrun
  · exact weight_reaches hrun
  · exact markers_reaches hrun
  · exact (labels_spec hrun).1

/-- A label that is drawn brings its authored color along. -/
theorem resolve_text (h : resolve c = .ok props) (hdraws : DrawsLabel c.layer)
    (hcolor : (labelSetting c.layer.config "color").isNull = false) :
    HasTextColor c.layer props := by
  obtain ⟨colored, typed, sized, stroked, raised, weighted, marked, -, htyped, hsized, hstroked,
    hraised, hweighted, hmarked, hlabelled⟩ := resolve_inv h
  obtain ⟨hlabels, htext⟩ := labels_spec hlabelled
  rcases hdraws with hcluster | hfield
  · refine ((typeSpecific_spec htyped).2 hcluster hcolor).of_reaches ?_
    exact (pointRadius_reaches hsized).trans <| (strokeColor_reaches hstroked).trans <|
      (height_reaches hraised).trans <| (weight_reaches hweighted).trans <|
      (markers_reaches hmarked).trans hlabels
  · exact htext hfield hcolor

end MapLayers.Channels
