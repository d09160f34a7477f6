import MapLayers.Channels.Resolve
import MapLayers.Proofs.Entries
import MapLayers.Proofs.Results

/-!
# What a channel step does

Each step of the resolution, opened once: the props that it leaves, as they are set from the props before
it. A step that resolves a channel sets its accessor under the prop of the channel.
-/

namespace MapLayers

/-- The prop under which the accessor of a channel is resolved. -/
def Channel.home : Channel → String
  | fillColor => "getFillColor"
  | lineColor => "getLineColor"
  | pointRadius => "getPointRadius"
  | elevation => "getElevation"
  | weight => "getWeight"
  | iconAngle => "getIconAngle"

namespace Accessor

variable {channel : Channel} {data : Json} {a : Accessor}

theorem reader_channel {name aggregation : Json} {r : Reader}
    (h : Reader.new channel name aggregation = .ok r) : r.channel = channel := by
  simp only [Reader.new, Result.bind_eq_ok_iff, Result.pure_eq_ok_iff] at h
  obtain ⟨keys, -, rfl⟩ := h
  rfl

theorem forColor_channel {spec : ColorSpec} (h : forColor channel spec data = .ok a) :
    a.channel? = some channel := by
  simp only [forColor, Result.bind_eq_ok_iff, Result.pure_eq_ok_iff] at h
  obtain ⟨name, -, column, -, scale, -, alpha, -, reader, hreader, rfl⟩ := h
  exact congrArg some (reader_channel hreader)

theorem forSize_channel {spec : SizeSpec} (h : forSize channel spec data = .ok a) :
    a.channel? = some channel := by
  simp only [forSize, Result.bind_eq_ok_iff, Result.pure_eq_ok_iff] at h
  obtain ⟨name, -, scale, -, reader, hreader, rfl⟩ := h
  exact congrArg some (reader_channel hreader)

theorem forLabel_channel {field : Json} (h : forLabel field data = .ok a) : a.channel? = none := by
  simp only [forLabel, Result.bind_eq_ok_iff, Result.pure_eq_ok_iff] at h
  obtain ⟨name, -, type, -, format, -, rfl⟩ := h
  rfl

theorem forBin_channel {field aggregation : Json} (h : forBin field aggregation = .ok a) :
    a.channel? = none := by
  simp only [forBin, Result.bind_eq_ok_iff, Result.pure_eq_ok_iff] at h
  obtain ⟨name, -, aggregation, -, rfl⟩ := h
  rfl

theorem forIcon_channel {field range fallback : Json} {style : Icon.Style}
    (h : forIcon field range fallback style data = .ok a) : a.channel? = none := by
  simp only [forIcon, Result.bind_eq_ok_iff] at h
  obtain ⟨url, -, h⟩ := h
  split at h
  · rw [Result.pure_eq_ok_iff] at h
    exact h ▸ rfl
  · simp only [Result.bind_eq_ok_iff, Result.pure_eq_ok_iff] at h
    obtain ⟨entries, -, markers, -, name, -, rfl⟩ := h
    rfl

end Accessor

namespace Channels

variable {c : Context} {props next : Props}

theorem get?_put_self (props : Props) (key : String) (value : PropValue) :
    Entries.get? (put props key value) key = some value := Entries.get?_set_self _ _ _

theorem get?_put_of_ne (props : Props) {key other : String} (value : PropValue) (h : key ≠ other) :
    Entries.get? (put props key value) other = Entries.get? props other :=
  Entries.get?_set_of_ne _ _ h

/-- What a step leaves that resolves a channel: the props as they are, or with the accessor of the
channel. -/
def Resolves (channel : Channel) (props next : Props) : Prop :=
  next = props ∨
  ∃ a : Accessor, a.channel? = some channel ∧ next = put props channel.home (.accessor a)

/-- Where the column of a channel is missing, the props stay as they are. -/
theorem eq_or_of_absent {absent : Bool} {body : Result Props}
    (h : (if absent = true then pure props else body) = .ok next) :
    next = props ∨ body = .ok next := by
  split at h
  · rw [Result.pure_eq_ok_iff] at h
    exact .inl h.symm
  · exact .inr h

theorem aggregatedColor_inv (h : aggregatedColor c props = .ok next) :
    let scaled := putJson props "colorScaleType" (c.channel "colorScale")
    next = scaled ∨
    ∃ (key : String) (a : Accessor), (key = "getColorWeight" ∨ key = "getColorValue") ∧
      a.channel? = none ∧ next = put scaled key (.accessor a) := by
  intro scaled
  rcases eq_or_of_absent h with hsame | h
  · exact .inl hsame
  · simp only [Result.bind_eq_ok_iff] at h
    obtain ⟨aggregation, -, renderer, -, h⟩ := h
    split at h
    · simp only [Result.bind_eq_ok_iff, Result.pure_eq_ok_iff] at h
      obtain ⟨name, -, rfl⟩ := h
      exact .inr ⟨_, _, .inl rfl, rfl, rfl⟩
    · simp only [Result.bind_eq_ok_iff, Result.pure_eq_ok_iff] at h
      obtain ⟨a, ha, rfl⟩ := h
      exact .inr ⟨_, _, .inr rfl, Accessor.forBin_channel ha, rfl⟩

theorem fillColor_inv (h : fillColor c props = .ok next) : Resolves .fillColor props next := by
  rcases eq_or_of_absent h with hsame | h
  · exact .inl hsame
  · simp only [Result.bind_eq_ok_iff, Result.pure_eq_ok_iff] at h
    obtain ⟨aggregation, -, range, -, opacity, -, a, ha, rfl⟩ := h
    exact .inr ⟨a, Accessor.forColor_channel ha, rfl⟩

theorem strokeColor_inv (h : strokeColor c props = .ok next) : Resolves .lineColor props next := by
  rcases eq_or_of_absent h with hsame | h
  · exact .inl hsame
  · simp only [Result.bind_eq_ok_iff, Result.pure_eq_ok_iff] at h
    obtain ⟨opacity, -, aggregation, -, range, -, a, ha, rfl⟩ := h
    exact .inr ⟨a, Accessor.forColor_channel ha, rfl⟩

theorem pointRadius_inv (h : pointRadius c props = .ok next) :
    Resolves .pointRadius props next := by
  rcases eq_or_of_absent h with hsame | h
  · exact .inl hsame
  · simp only [Result.bind_eq_ok_iff, Result.pure_eq_ok_iff] at h
    obtain ⟨aggregation, -, range, -, a, ha, rfl⟩ := h
    exact .inr ⟨a, Accessor.forSize_channel ha, rfl⟩

theorem height_inv (h : height c props = .ok next) : Resolves .elevation props next := by
  rcases eq_or_of_absent h with hsame | h
  · exact .inl hsame
  · rw [Result.bind_eq_ok_iff] at h
    obtain ⟨raised, -, h⟩ := h
    rcases eq_or_of_absent h with hsame | h
    · exact .inl hsame
    · simp only [Result.bind_eq_ok_iff, Result.pure_eq_ok_iff] at h
      obtain ⟨aggregation, -, range, -, a, ha, rfl⟩ := h
      exact .inr ⟨a, Accessor.forSize_channel ha, rfl⟩

theorem weight_inv (h : weight c props = .ok next) : Resolves .weight props next := by
  rcases eq_or_of_absent h with hsame | h
  · exact .inl hsame
  · simp only [Result.bind_eq_ok_iff, Result.pure_eq_ok_iff] at h
    obtain ⟨aggregation, -, a, ha, rfl⟩ := h
    exact .inr ⟨a, Accessor.forSize_channel ha, rfl⟩

theorem pointAltitude_inv (h : pointAltitude c props = .ok next) :
    next = props ∨ ∃ column, next = put props "dataTransform" (.accessor (.altitude column)) := by
  simp only [pointAltitude, Result.bind_eq_ok_iff] at h
  obtain ⟨altitude, -, h⟩ := h
  rcases eq_or_of_absent h with hsame | h
  · exact .inl hsame
  · rw [Result.pure_eq_ok_iff] at h
    exact .inr ⟨altitude, h.symm⟩

/-- The props of a cluster before its label has given them its colors. -/
def clusterStart (props : Props) (hasText level : Json) (radii : Json) (column : String) : Props :=
  let props := putText props "pointType" (if hasText.truthy then "circle+text" else "circle")
  let props := putJson props "clusterLevel" level
  let props := put props "getWeight" (.accessor (.clusterWeight column))
  let props := put props "getPointRadius" (.accessor (.clusterRadius radii column))
  put (withTextFace props) "getText" (.accessor (.clusterLabel column))

/-- The props of a cluster once its label has given them its colors. -/
def clusterEnd (props : Props) (radii : Json) (column : String) : Props :=
  let props := put props "textOutlineWidth" (.int 5)
  let props := putText props "textSizeUnits" "pixels"
  put props "getTextSize" (.accessor (.clusterFont radii column))

theorem clusters_inv (h : clusters c props = .ok next) :
    ∃ hasText level radii column label colored, c.vis "isTextVisible" = .ok hasText ∧
      firstLabel (c.setting "textLabel") = .ok label ∧
      clusterLabelColors label (clusterStart props hasText level radii column) = .ok colored ∧
      next = clusterEnd colored radii column := by
  simp only [clusters, Result.bind_eq_ok_iff, Result.pure_eq_ok_iff] at h
  obtain ⟨column, -, range, -, hasText, htext, level, -, label, hlabel, colored, hcolored, rfl⟩ := h
  exact ⟨hasText, level, range.orElse defaultRadii, column, label, colored, htext, hlabel, hcolored,
    rfl⟩

theorem clusterLabelColors_inv {label : Json} (h : clusterLabelColors label props = .ok next) :
    ∃ color, label.lookup "color" = .ok color ∧
      let colored := if color.isNull then props else putJson props "getTextColor" color
      (next = colored ∨ ∃ outline, next = putJson colored "textOutlineColor" outline) := by
  simp only [clusterLabelColors, Result.bind_eq_ok_iff] at h
  obtain ⟨color, hcolor, outline, -, h⟩ := h
  refine ⟨color, hcolor, ?_⟩
  rcases eq_or_of_absent h with hsame | h
  · exact .inl hsame
  · simp only [Result.bind_eq_ok_iff, Result.pure_eq_ok_iff] at h
    obtain ⟨channels, -, rfl⟩ := h
    exact .inr ⟨_, rfl⟩

theorem iconAngle_inv (h : iconAngle c props = .ok next) :
    next = props ∨ ∃ a : Accessor, a.channel? = some .iconAngle ∧
      next = put props "getIconAngle" (.accessor (.negated a)) := by
  rcases eq_or_of_absent h with hsame | h
  · exact .inl hsame
  · simp only [Result.bind_eq_ok_iff, Result.pure_eq_ok_iff] at h
    obtain ⟨a, ha, rfl⟩ := h
    exact .inr ⟨a, Accessor.forSize_channel ha, rfl⟩

/-- The props of a layer that is drawn in icons, before they take a color or a size over. -/
def iconStart (props : Props) (icon : Accessor) (size : Int) : Props :=
  put (put (putText props "pointType" "icon") "getIcon" (.accessor icon)) "_subLayerProps"
    (.record [(.field "points-icon", iconLayerProps size)])

/-- The props with the color of the filling for icons that are masks. -/
def withIconColor (c : Context) (masked : Bool) (props : Props) : Props :=
  match iconColor? c props with
  | some filling => if masked then put props "getIconColor" filling else props
  | none => props

/-- The props with the resolved radius as the size of icons. -/
def withIconSize (props : Props) : Props :=
  match present? props "getPointRadius" with
  | some radius => put props "getIconSize" radius
  | none => props

theorem icons_parts (h : icons c props = .ok next) :
    ∃ (size : Int) (filled range fallback : Json) (icon : Accessor),
      Icon.largestSize c.layer.visConfig (.object c.layer.channels) = .ok size ∧
      c.vis "filled" = .ok filled ∧
      Accessor.forIcon (c.channel "customMarkersField") range fallback ⟨.int size, filled.truthy⟩
        c.data = .ok icon ∧
      iconAngle c (withIconSize (withIconColor c filled.truthy (iconStart props icon size))) =
        .ok next := by
  simp only [icons, Result.bind_eq_ok_iff] at h
  obtain ⟨size, hsize, filled, hfilled, range, -, fallback, -, icon, hicon, h⟩ := h
  exact ⟨size, filled, range, fallback, icon, hsize, hfilled, hicon, h⟩

theorem icons_inv (h : icons c props = .ok next) :
    ∃ (size : Int) (filled : Json) (icon : Accessor), icon.channel? = none ∧
      c.vis "filled" = .ok filled ∧
      iconAngle c (withIconSize (withIconColor c filled.truthy (iconStart props icon size))) =
        .ok next := by
  obtain ⟨size, filled, range, fallback, icon, -, hfilled, hicon, h⟩ := icons_parts h
  exact ⟨size, filled, icon, Accessor.forIcon_channel hicon, hfilled, h⟩

/-- The props of a layer that is not drawn in icons. -/
def withPlainMarks (c : Context) (props : Props) : Props :=
  if c.layer.type = "point" ∨ c.layer.type = "tileset" then putText props "pointType" "circle"
  else props

theorem markers_inv (h : markers c props = .ok next) :
    ∃ wanted, c.vis "customMarkers" = .ok wanted ∧
      (wanted.truthy = true ∧ icons c props = .ok next ∨
        wanted.truthy = false ∧ next = withPlainMarks c props) := by
  simp only [markers, Result.bind_eq_ok_iff] at h
  obtain ⟨wanted, hwanted, h⟩ := h
  refine ⟨wanted, hwanted, ?_⟩
  split at h
  · next htruthy => exact .inl ⟨htruthy, h⟩
  · next hfalsy =>
    refine .inr ⟨by simpa using hfalsy, ?_⟩
    unfold withPlainMarks
    split at h <;> rw [Result.pure_eq_ok_iff] at h
    · next hplain => rw [if_pos hplain, h]
    · next hother => rw [if_neg hother, h]

/-- The props of the first label, before the sub-layer of texts is added. -/
def labelStart (props : Props) (text : Accessor) : Props :=
  let props := put props "getText" (.accessor text)
  put (withTextFace (putText props "pointType" (withText props))) "textOutlineWidth" (.int 3)

/-- The props of the sub-layer of texts. -/
def textLayerProps (c : Context) (room : PropKey × PropValue)
    (second : List (PropKey × PropValue)) : PropValue :=
  .record ([(.field "collisionEnabled", .bool true), (.field "collisionGroup", .text c.layer.id),
    room] ++ second)

theorem mainLabel_inv {main secondary : Json} (h : mainLabel c main secondary props = .ok next) :
    ∃ (set : Props) (text : Accessor) (room : PropKey × PropValue)
      (second : List (PropKey × PropValue)),
      labelSettings main labelProps props = .ok set ∧ text.channel? = none ∧
      labelRoom c (labelStart set text) = .ok room ∧ secondaryLabel c secondary = .ok second ∧
      next = put (labelStart set text) "_subLayerProps" (.record
        (Entries.set (subLayers (labelStart set text)) (.field "points-text")
          (textLayerProps c room second))) := by
  simp only [mainLabel, Result.bind_eq_ok_iff, Result.pure_eq_ok_iff] at h
  obtain ⟨set, hset, field, -, text, htext, room, hroom, second, hsecond, rfl⟩ := h
  exact ⟨set, text, room, second, hset, Accessor.forLabel_channel htext, hroom, hsecond, rfl⟩

theorem secondaryLabel_inv {label : Json} {second : List (PropKey × PropValue)}
    (h : secondaryLabel c label = .ok second) :
    second = [] ∨ ∃ (text : Accessor) (color size outline : Json), text.channel? = none ∧
      second = [(.field "getSecondaryText", .accessor text),
        (.field "getSecondaryColor", .ofJson color), (.field "secondarySizeScale", .ofJson size),
        (.field "secondaryOutlineColor", .ofJson outline)] := by
  simp only [secondaryLabel, Result.bind_eq_ok_iff] at h
  obtain ⟨field, -, h⟩ := h
  split at h
  · rw [Result.pure_eq_ok_iff] at h
    exact .inl h.symm
  · simp only [Result.bind_eq_ok_iff, Result.pure_eq_ok_iff] at h
    obtain ⟨text, htext, color, -, size, -, outline, -, rfl⟩ := h
    exact .inr ⟨text, color, size, outline, Accessor.forLabel_channel htext, rfl⟩

theorem labelRoom_inv {room : PropKey × PropValue} (h : labelRoom c props = .ok room) :
    (∃ radius, present? props "getPointRadius" = some radius ∧
      room = (.field "getRadius", radius)) ∨
    (present? props "getPointRadius" = none ∧
      ∃ scale, room = (.field "radiusScale", .ofJson scale)) := by
  unfold labelRoom at h
  split at h
  · next radius hradius => exact .inl ⟨radius, hradius, (Except.ok.inj h).symm⟩
  · next hnone =>
    simp only [Result.bind_eq_ok_iff, Result.pure_eq_ok_iff] at h
    obtain ⟨radius, -, rfl⟩ := h
    refine .inr ⟨hnone, if radius.isNull then .int Icon.defaultRadius else radius, ?_⟩
    split <;> rfl

theorem labels_inv (h : labels c props = .ok next) :
    next = props ∨ ∃ main secondary, mainLabel c main secondary props = .ok next := by
  unfold labels at h
  dsimp only at h
  split at h
  · rw [Result.bind_eq_ok_iff] at h
    obtain ⟨all, -, h⟩ := h
    split at h
    · rw [Result.pure_eq_ok_iff] at h
      exact .inl h.symm
    · next main others _ =>
      rw [Result.bind_eq_ok_iff] at h
      obtain ⟨field, -, h⟩ := h
      rcases eq_or_of_absent h with hsame | h
      · exact .inl hsame
      · exact .inr ⟨main, _, h⟩
  · simp only [Result.bind_eq_ok_iff, Result.pure_eq_ok_iff] at h
    obtain ⟨all, rfl, h⟩ := h
    rw [show List.take maxLabels ([] : List Json) = [] from rfl] at h
    rw [Result.pure_eq_ok_iff] at h
    exact .inl h.symm

/-- The props between the steps. -/
theorem resolve_inv (h : resolve c = .ok props) :
    ∃ colored typed sized stroked raised weighted marked, color c [] = .ok colored ∧
      typeSpecific c colored = .ok typed ∧ pointRadius c typed = .ok sized ∧
      strokeColor c sized = .ok stroked ∧ height c stroked = .ok raised ∧
      weight c raised = .ok weighted ∧ markers c weighted = .ok marked ∧
      labels c marked = .ok props := by
  simp only [resolve, steps, List.foldlM_cons, List.foldlM_nil, Result.bind_eq_ok_iff,
    Result.pure_eq_ok_iff] at h
  obtain ⟨colored, hcolored, typed, htyped, sized, hsized, stroked, hstroked, raised, hraised,
    weighted, hweighted, marked, hmarked, labelled, hlabelled, rfl⟩ := h
  exact ⟨colored, typed, sized, stroked, raised, weighted, marked, hcolored, htyped, hsized,
    hstroked, hraised, hweighted, hmarked, hlabelled⟩

end Channels

end MapLayers
