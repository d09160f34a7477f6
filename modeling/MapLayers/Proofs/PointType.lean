import MapLayers.Proofs.ChannelProps

/-!
# Point types

A layer draws its points as circles or icons, with texts beside them or without. Clusters, markers and
labels set the point type one after the other, and labels add texts to whatever they find. So the type
stays among the known ones unless a cluster that has a text of its own is labelled as well.
-/

namespace MapLayers.Channels

open LayerType (labelSetting visSetting)

/-- What the renderer can draw points as. -/
def pointTypes : List String := ["circle", "icon", "circle+text", "icon+text"]

/-- The point type among the props, if there is one. -/
def HasPointType (props : Props) (type : Option String) : Prop :=
  Entries.get? props "pointType" = type.map PropValue.text

variable {c : Context} {props next : Props} {type : Option String}

/-- Clusters are circles, with a text if it is wanted. -/
def clusterType (c : Context) (type : Option String) : Option String :=
  if c.layer.type = "clusterTile" then
    some (if (visSetting c.layer.config "isTextVisible").truthy then "circle+text" else "circle")
  else type

/-- Markers are icons; without them, points and tiles are circles. -/
def markerType (c : Context) (type : Option String) : Option String :=
  if (visSetting c.layer.config "customMarkers").truthy then some "icon"
  else if c.layer.type = "point" ∨ c.layer.type = "tileset" then some "circle"
  else type

/-- A label adds a text to the points, which are circles if nothing has been said about them. -/
def labelType (c : Context) (type : Option String) : Option String :=
  if (labelSetting c.layer.config "field").truthy then some (type.getD "circle" ++ "+text")
  else type

theorem HasPointType.start : HasPointType [] none := rfl

theorem HasPointType.put_self (props : Props) (type : String) :
    HasPointType (putText props "pointType" type) (some type) :=
  get?_put_self _ _ _

theorem HasPointType.put (h : HasPointType props type) {key : String} (value : PropValue)
    (hkey : key ≠ "pointType") : HasPointType (put props key value) type :=
  (get?_put_of_ne _ _ hkey).trans h

theorem HasPointType.withTextFace (h : HasPointType props type) :
    HasPointType (withTextFace props) type := by
  unfold Channels.withTextFace
  exact (((h.put _ (by decide)).put _ (by decide)).put _ (by decide)).put _ (by decide)

theorem eq_visSetting {key : String} {value : Json} (h : c.vis key = .ok value) :
    value = visSetting c.layer.config key := LayerType.eq_visSetting_of_lookup h

theorem Resolves.pointType {channel : Channel} (hstep : Resolves channel props next)
    (h : HasPointType props type) : HasPointType next type := by
  obtain rfl | ⟨a, -, rfl⟩ := hstep
  · exact h
  · apply h.put
    cases channel <;> decide

theorem color_pointType (hrun : color c props = .ok next) (h : HasPointType props type) :
    HasPointType next type := by
  unfold color at hrun
  split at hrun
  · have hscaled : HasPointType (putJson props "colorScaleType" (c.channel "colorScale")) type :=
      h.put _ (by decide)
    obtain rfl | ⟨key, a, hkey, -, rfl⟩ := aggregatedColor_inv hrun
    · exact hscaled
    · apply hscaled.put
      rcases hkey with rfl | rfl <;> decide
  · exact (fillColor_inv hrun).pointType h

theorem clusters_pointType (hrun : clusters c props = .ok next)
    (htype : c.layer.type = "clusterTile") : HasPointType next (clusterType c type) := by
  obtain ⟨hasText, level, radii, column, label, colored, htext, -, hcolored, rfl⟩ :=
    clusters_inv hrun
  have hstart : HasPointType (clusterStart props hasText level radii column) (clusterType c type) := by
    rw [clusterType, if_pos htype, ← eq_visSetting htext]
    have hset := HasPointType.put_self props (if hasText.truthy then "circle+text" else "circle")
    exact (((hset.put _ (by decide)).put _ (by decide)).put _ (by decide)).withTextFace.put _
      (by decide)
  have hlabel : HasPointType colored (clusterType c type) := by
    obtain ⟨color, -, hnext⟩ := clusterLabelColors_inv hcolored
    have hcolor : HasPointType (if color.isNull then clusterStart props hasText level radii column
        else putJson (clusterStart props hasText level radii column) "getTextColor" color)
        (clusterType c type) := by
      split
      · exact hstart
      · exact hstart.put _ (by decide)
    obtain rfl | ⟨outline, rfl⟩ := hnext
    · exact hcolor
    · exact hcolor.put _ (by decide)
  exact ((hlabel.put _ (by decide)).put _ (by decide)).put _ (by decide)

theorem typeSpecific_pointType (hrun : typeSpecific c props = .ok next)
    (h : HasPointType props type) : HasPointType next (clusterType c type) := by
  by_cases htype : c.layer.type = "clusterTile"
  · rw [typeSpecific, if_neg (by rw [htype]; decide), if_pos htype] at hrun
    exact clusters_pointType hrun htype
  · rw [clusterType, if_neg htype]
    rw [typeSpecific, if_neg htype] at hrun
    split at hrun
    · obtain rfl | ⟨column, rfl⟩ := pointAltitude_inv hrun
      · exact h
      · exact h.put _ (by decide)
    · exact Except.ok.inj hrun ▸ h

theorem icons_pointType (hrun : icons c props = .ok next) : HasPointType next (some "icon") := by
  obtain ⟨size, filled, icon, -, -, hangle⟩ := icons_inv hrun
  have hstart : HasPointType (iconStart props icon size) (some "icon") :=
    ((HasPointType.put_self _ _).put _ (by decide)).put _ (by decide)
  have hcolored : HasPointType (withIconColor c filled.truthy (iconStart props icon size))
      (some "icon") := by
    unfold withIconColor
    split
    · split
      · exact hstart.put _ (by decide)
      · exact hstart
    · exact hstart
  have hsized : HasPointType
      (withIconSize (withIconColor c filled.truthy (iconStart props icon size))) (some "icon") := by
    unfold withIconSize
    split
    · exact hcolored.put _ (by decide)
    · exact hcolored
  obtain hsame | ⟨a, -, rfl⟩ := iconAngle_inv hangle
  · exact hsame ▸ hsized
  · exact hsized.put _ (by decide)

theorem markers_pointType (hrun : markers c props = .ok next) (h : HasPointType props type) :
    HasPointType next (markerType c type) := by
  obtain ⟨wanted, hwanted, hcases⟩ := markers_inv hrun
  rw [markerType, ← eq_visSetting hwanted]
  obtain ⟨htruthy, hicons⟩ | ⟨hfalsy, rfl⟩ := hcases
  · rw [if_pos htruthy]
    exact icons_pointType hicons
  · rw [if_neg (by simp [hfalsy]), withPlainMarks]
    split
    · exact .put_self _ _
    · exact h

theorem withText_eq (h : HasPointType props type) : withText props = type.getD "circle" ++ "+text" := by
  unfold withText
  rw [h]
  cases type <;> rfl

theorem labelStart_pointType (h : HasPointType props type) (text : Accessor) :
    HasPointType (labelStart props text) (some (type.getD "circle" ++ "+text")) := by
  have htext : HasPointType (put props "getText" (.accessor text)) type := h.put _ (by decide)
  rw [← withText_eq htext]
  exact (HasPointType.put_self _ _).withTextFace.put _ (by decide)

theorem labels_pointType (hrun : labels c props = .ok next) (h : HasPointType props type) :
    HasPointType next (labelType c type) := by
  obtain ⟨hfalsy, rfl⟩ | ⟨htruthy, main, secondary, -, hmain⟩ := labels_cases hrun
  · rw [labelType, if_neg (by simp [hfalsy])]
    exact h
  · rw [labelType, if_pos htruthy]
    obtain ⟨set, text, room, second, hset, -, -, -, rfl⟩ := mainLabel_inv hmain
    have hkept : HasPointType set type :=
      ((labelSettings_spec (by decide) hset).1 "pointType" (by decide)).trans h
    exact (labelStart_pointType hkept text).put _ (by decide)

theorem resolve_pointType (h : resolve c = .ok props) :
    HasPointType props (labelType c (markerType c (clusterType c none))) := by
  obtain ⟨colored, typed, sized, stroked, raised, weighted, marked, hcolored, htyped, hsized,
    hstroked, hraised, hweighted, hmarked, hlabelled⟩ := resolve_inv h
  have htype := typeSpecific_pointType htyped (color_pointType hcolored .start)
  have hsizes := (strokeColor_inv hstroked).pointType ((pointRadius_inv hsized).pointType htype)
  have hheights := (weight_inv hweighted).pointType ((height_inv hraised).pointType hsizes)
  exact labels_pointType hlabelled (markers_pointType hmarked hheights)

/-- A cluster with a text of its own, which is not drawn in icons. -/
def TextCluster (c : Context) : Prop :=
  c.layer.type = "clusterTile" ∧ (visSetting c.layer.config "isTextVisible").truthy = true ∧
    (visSetting c.layer.config "customMarkers").truthy = false

/-- A text is added to a cluster that has one. -/
def RepeatsText (c : Context) : Prop :=
  TextCluster c ∧ (labelSetting c.layer.config "field").truthy = true

theorem markerType_of_textCluster (h : TextCluster c) :
    markerType c (clusterType c none) = some "circle+text" := by
  obtain ⟨htype, htext, hmarkers⟩ := h
  simp [markerType, clusterType, htype, htext, hmarkers]

theorem markerType_bare (h : ¬TextCluster c) :
    ∀ type, markerType c (clusterType c none) = some type → type = "circle" ∨ type = "icon" := by
  intro type htype
  unfold markerType at htype
  split at htype
  · exact .inr (Option.some.inj htype).symm
  · next hmarkers =>
    split at htype
    · exact .inl (Option.some.inj htype).symm
    · unfold clusterType at htype
      split at htype
      · next hcluster =>
        have htext : ¬(visSetting c.layer.config "isTextVisible").truthy = true :=
          fun htext => h ⟨hcluster, htext, by simpa using hmarkers⟩
        rw [if_neg htext] at htype
        exact .inl (Option.some.inj htype).symm
      · exact absurd htype (by simp)

theorem labelType_of_repeatsText (h : RepeatsText c) :
    labelType c (markerType c (clusterType c none)) = some "circle+text+text" := by
  rw [labelType, if_pos h.2, markerType_of_textCluster h.1]
  rfl

theorem labelType_mem (h : ¬RepeatsText c) :
    ∀ type, labelType c (markerType c (clusterType c none)) = some type → type ∈ pointTypes := by
  intro type htype
  by_cases hcluster : TextCluster c
  · have hfield : ¬(labelSetting c.layer.config "field").truthy = true :=
      fun hfield => h ⟨hcluster, hfield⟩
    rw [labelType, if_neg hfield, markerType_of_textCluster hcluster] at htype
    rw [← Option.some.inj htype]
    decide
  · have hbare := markerType_bare hcluster
    generalize markerType c (clusterType c none) = before at hbare htype
    unfold labelType at htype
    split at htype
    · rw [← Option.some.inj htype]
      cases before with
      | none => decide
      | some old => rcases hbare old rfl with rfl | rfl <;> decide
    · rcases hbare type htype with rfl | rfl <;> decide

/-- The point type of a layer is a known one, unless a text is added to a cluster that has one; then the
text stands twice. -/
theorem pointType_known_iff (h : resolve c = .ok props) :
    ((∀ value, Entries.get? props "pointType" = some value →
      ∃ type ∈ pointTypes, value = .text type) ↔ ¬RepeatsText c) ∧
    (RepeatsText c → Entries.get? props "pointType" = some (.text "circle+text+text")) := by
  have htype := resolve_pointType h
  have hrepeated (hrepeats : RepeatsText c) :
      Entries.get? props "pointType" = some (.text "circle+text+text") := by
    rw [htype, labelType_of_repeatsText hrepeats]
    rfl
  refine ⟨⟨?_, ?_⟩, hrepeated⟩
  · intro hknown hrepeats
    obtain ⟨type, hmem, hvalue⟩ := hknown _ (hrepeated hrepeats)
    rw [← PropValue.text.inj hvalue] at hmem
    exact absurd hmem (by decide)
  · intro hsingle value hvalue
    rw [htype] at hvalue
    obtain ⟨type, hfinal, rfl⟩ := Option.map_eq_some_iff.mp hvalue
    exact ⟨type, labelType_mem hsingle type hfinal, rfl⟩

/-- A cluster with a text, drawn in icons or in circles, and a label beside it. -/
def labelledCluster (markers : Bool) : Context where
  layer := ⟨"a", "clusterTile", [("visConfig", .object [("isTextVisible", .bool true),
      ("customMarkers", .bool markers)]),
    ("textLabel", .list [.object [("field", .object [("name", .text "n")])]])], []⟩
  dataset := ⟨"d", .null, .null, .object [("tilestats", .object [])], .null⟩
  style := []

theorem pointType_known_icons : ∃ props, resolve (labelledCluster true) = .ok props ∧
    ((∀ value, Entries.get? props "pointType" = some value →
      ∃ type ∈ pointTypes, value = .text type) ↔ ¬RepeatsText (labelledCluster true)) ∧
    (RepeatsText (labelledCluster true) →
      Entries.get? props "pointType" = some (.text "circle+text+text")) := by
  obtain ⟨props, hprops⟩ : ∃ props, resolve (labelledCluster true) = .ok props := ⟨_, rfl⟩
  exact ⟨props, hprops, pointType_known_iff hprops⟩

/-- In circles, the text of the label comes on top of that of the cluster. -/
theorem labelled_cluster_repeats_text : ∃ props, resolve (labelledCluster false) = .ok props ∧
    Entries.get? props "pointType" = some (.text "circle+text+text") ∧
    "circle+text+text" ∉ pointTypes :=
  ⟨_, rfl, rfl, by decide⟩

end MapLayers.Channels
