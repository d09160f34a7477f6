import MapLayers.Proofs.SizeBounds
import MapLayers.Proofs.SubLayers

/-!
# Sizes of icons

The image of an icon is loaded at one size for the whole layer, and drawn at a size for every row. Both
come from the range of the radius by ways of their own: the image takes its end, rounded up, and the size
goes through the scale. For values of its domain every scale but the identity keeps to its range, so the
images are large enough for the sizes that they are drawn at.
-/

namespace MapLayers

theorem ScaleKind.eq_text_of_ofJson {value : Json} {kind : ScaleKind}
    (h : ScaleKind.ofJson value = .ok kind) : value = .text kind.name := by
  cases value with
  | text s =>
    simp only [ScaleKind.ofJson] at h
    split at h
    · next found hfound =>
      obtain rfl := Except.ok.inj h
      have hname := List.find?_some hfound
      rw [of_decide_eq_true hname]
    · simp at h
  | _ => simp [ScaleKind.ofJson] at h

theorem Scale.firstDomain_length (kind : ScaleKind) : (firstDomain kind).length ≤ 2 := by
  cases kind <;> decide

namespace Domain

theorem ofStatistics_length {column : Json} {shape : Shape} {domain : List Json}
    (hshape : shape = .extent ∨ shape = .positiveExtent)
    (h : ofStatistics column shape = .ok domain) : domain.length ≤ 2 := by
  have hcategories : (decide (shape = .categories) : Bool) = false := by
    rcases hshape with rfl | rfl <;> rfl
  simp only [ofStatistics, hcategories, Bool.false_and, Bool.false_eq_true, if_false,
    Result.bind_eq_ok_iff, Result.pure_eq_ok_iff] at h
  obtain ⟨categories, -, low, -, high, -, rfl⟩ := h
  exact le_rfl

theorem extent_length (positive : Bool) (numbers : List Number) :
    (extent positive numbers).length ≤ 2 := by
  unfold extent
  split
  · exact le_rfl
  · exact Nat.zero_le 2

theorem ofValues_length {values : List Json} {shape : Shape} {domain : List Json}
    (hshape : shape = .extent ∨ shape = .positiveExtent)
    (h : ofValues values shape = .ok domain) : domain.length ≤ 2 := by
  rcases hshape with rfl | rfl <;>
  · simp only [ofValues, Result.bind_eq_ok_iff, Result.pure_eq_ok_iff] at h
    obtain ⟨numbers, -, rfl⟩ := h
    exact extent_length _ numbers

theorem ofData_length {data name : Json} {shape : Shape} {domain : List Json}
    (hshape : shape = .extent ∨ shape = .positiveExtent)
    (h : ofData data name shape = .ok domain) : domain.length ≤ 2 := by
  unfold ofData at h
  split at h
  · split at h
    · simp only [Result.bind_eq_ok_iff] at h
      obtain ⟨column, -, h⟩ := h
      split at h
      · exact ofStatistics_length hshape h
      · rw [Result.pure_eq_ok_iff] at h
        rw [← h]
        exact Nat.zero_le 2
    · simp only [Result.bind_eq_ok_iff] at h
      obtain ⟨values, -, h⟩ := h
      exact ofValues_length hshape h
  · simp only [Result.bind_eq_ok_iff] at h
    obtain ⟨values, -, h⟩ := h
    exact ofValues_length hshape h

end Domain

namespace Icon

variable {style : Style} {markers next : Markers}

def OfStyle (style : Style) (markers : Markers) : Prop :=
  ∀ entry ∈ markers, ∃ url, entry.2 = make style url

theorem OfStyle.nil : OfStyle style [] := fun _ hentry => absurd hentry List.not_mem_nil

theorem OfStyle.setMarker (h : OfStyle style markers) (value url : Json) :
    OfStyle style (setMarker value (make style url) markers) := by
  induction markers with
  | nil =>
    intro entry hentry
    rw [List.mem_singleton.mp hentry]
    exact ⟨url, rfl⟩
  | cons first rest ih =>
    obtain ⟨hfirst, hrest⟩ := List.forall_mem_cons.mp h
    obtain ⟨other, old⟩ := first
    unfold Icon.setMarker
    split
    · exact List.forall_mem_cons.mpr ⟨⟨url, rfl⟩, hrest⟩
    · exact List.forall_mem_cons.mpr ⟨hfirst, ih hrest⟩

theorem OfStyle.addMarkers {entries : List Json} (h : OfStyle style markers)
    (hrun : addMarkers style markers entries = .ok next) : OfStyle style next := by
  induction entries generalizing markers with
  | nil => exact Except.ok.inj hrun ▸ h
  | cons entry rest ih =>
    simp only [Icon.addMarkers, Result.bind_eq_ok_iff] at hrun
    obtain ⟨url, -, hrun⟩ := hrun
    split at hrun
    · simp only [Result.bind_eq_ok_iff] at hrun
      obtain ⟨value, -, hrun⟩ := hrun
      split at hrun
      · exact ih (h.setMarker value url) hrun
      · simp at hrun
    · exact ih h hrun

theorem markersOf_ofStyle {entries : Json} (hrun : markersOf style entries = .ok next) :
    OfStyle style next := by
  unfold markersOf at hrun
  split at hrun
  · simp only [Result.bind_eq_ok_iff] at hrun
    obtain ⟨items, -, hrun⟩ := hrun
    exact OfStyle.nil.addMarkers hrun
  · rw [Result.pure_eq_ok_iff] at hrun
    exact hrun ▸ OfStyle.nil

theorem OfStyle.pick (h : OfStyle style markers) {url value drawn : Json}
    (hrun : pick markers (make style url) value = .ok drawn) : ∃ url, drawn = make style url := by
  unfold Icon.pick at hrun
  split at hrun
  · rw [← Except.ok.inj hrun]
    cases hfind : markers.find? fun entry => entry.1.same value with
    | none => exact ⟨url, rfl⟩
    | some entry => exact h entry (List.mem_of_find?_eq_some hfind)
  · simp at hrun

theorem ceil_of_toInt {n : Number} {q : Rat} {size : Int} (hq : n.position? = some (.finite q))
    (h : n.toInt Rat.ceil = .ok size) : size = q.ceil := by
  cases n with
  | int m =>
    obtain rfl : (m : Rat) = q := by simpa [Number.position?] using hq
    obtain rfl : m = size := Except.ok.inj h
    exact (Rat.ceil_intCast m).symm
  | float x =>
    rw [Number.toInt, Number.position?_float.mp hq] at h
    exact (Except.ok.inj h).symm

/-- Icons whose radius is driven by a column are as large as the end of the radius range, rounded up. -/
theorem largestSize_of_range {vis : Json} {channels : Json.Fields} {lo hi : Number} {h : Rat}
    {size : Int} (hrange : vis.lookup "radiusRange" = .ok (.list [.ofNumber lo, .ofNumber hi]))
    (hhigh : hi.position? = some (.finite h))
    (hfield : ((Json.fieldOf channels "radiusField").orElse
      (Json.fieldOf channels "sizeField")).truthy = true)
    (hrun : largestSize vis (.object channels) = .ok size) : size = h.ceil := by
  have hoperand : (Json.ofNumber hi).operand = .ok hi := by cases hi <;> rfl
  have hitem : (Json.list [.ofNumber lo, .ofNumber hi]).item 1 = .ok (.ofNumber hi) := rfl
  -- The size is the same function of either column of the radius.
  have hsize (field fixed : Json) (htruthy : field.truthy = true) (hfound : (do
      let size ← if (Json.list [.ofNumber lo, .ofNumber hi]).truthy && field.truthy
        then (Json.list [.ofNumber lo, .ofNumber hi]).item 1
        else pure fixed
      let n ← size.operand
      n.toInt Rat.ceil) = .ok size) : size = h.ceil := by
    rw [htruthy, Bool.and_true, if_pos (by rfl), hitem, Result.ok_bind] at hfound
    dsimp only at hfound
    rw [hoperand] at hfound
    exact ceil_of_toInt hhigh hfound
  have hown (key : String) : (Json.object channels).lookup key = .ok (Json.fieldOf channels key) := rfl
  simp only [largestSize, hrange, hown, Result.ok_bind, Result.bind_eq_ok_iff] at hrun
  obtain ⟨radius, -, hrun⟩ := hrun
  split at hrun
  · next hthere => exact hsize _ _ hthere hrun
  · next hnone =>
    rw [Json.orElse, if_neg hnone] at hfield
    exact hsize _ _ hfield hrun

end Icon

namespace Accessor

theorem forIcon_style {field range fallback data : Json} {style : Icon.Style} {a : Accessor}
    (h : forIcon field range fallback style data = .ok a) {row drawn : Json} {info : Option Json}
    {kept : Kept} (hcall : (a.callWith row info kept).1 = .ok drawn) :
    ∃ url, drawn = Icon.make style url := by
  simp only [forIcon, Result.bind_eq_ok_iff] at h
  obtain ⟨url, -, h⟩ := h
  split at h
  · rw [Result.pure_eq_ok_iff] at h
    subst h
    exact ⟨url, (Except.ok.inj hcall).symm⟩
  · simp only [Result.bind_eq_ok_iff, Result.pure_eq_ok_iff] at h
    obtain ⟨entries, -, markers, hmarkers, name, -, rfl⟩ := h
    simp only [callWith, Result.method_bind_eq_ok_iff, Result.bind_eq_ok_iff] at hcall
    obtain ⟨found, -, value, -, hpick⟩ := hcall
    exact (Icon.markersOf_ofStyle hmarkers).pick hpick

theorem shape_of_interpolates {kind : ScaleKind} (h : kind.interpolates = true) :
    Domain.Shape.ofKind kind = .extent ∨ Domain.Shape.ofKind kind = .positiveExtent := by
  cases kind <;> first | exact .inl rfl | exact .inr rfl | cases h

theorem sizeScale_inv {name data : Json} {spec : SizeSpec} {scale : Scale} {entries : List Json}
    (h : sizeScale name spec data = .ok scale) (hscale : spec.scale.truthy = true)
    (hrange : spec.range = .list entries) :
    ScaleKind.ofJson spec.scale = .ok scale.kind ∧ scale.range = entries ∧ scale.unknown = .null ∧
      (scale.kind.interpolates = true → scale.domain.length ≤ 2) := by
  unfold sizeScale at h
  rw [if_pos hscale, hrange, Result.bind_eq_ok_iff] at h
  obtain ⟨kind, hkind, h⟩ := h
  split at h
  · obtain rfl := Except.ok.inj h
    exact ⟨hkind, rfl, rfl, fun _ => Scale.firstDomain_length kind⟩
  · rw [Result.bind_eq_ok_iff] at h
    obtain ⟨domain, hdomain, h⟩ := h
    obtain rfl := Except.ok.inj h
    refine ⟨hkind, rfl, rfl, fun hinterpolates => Domain.ofData_length ?_ hdomain⟩
    exact shape_of_interpolates hinterpolates

variable {reader : Reader} {scale : Scale} {features : Bool} {row value size : Json}
  {info : Option Json} {kept : Kept}

/-- A reader finds the value in a row, by a name that it has settled on or settles on now. -/
def Finds (reader : Reader) (features : Bool) (row : Json) (kept : Kept) (value : Json) : Prop :=
  ∃ found name, columns features row = .ok found ∧ reader.read kept.name found = (.ok value, name)

theorem size_callWith (hvalue : Finds reader features row kept value)
    (hcall : ((Accessor.size reader scale features).callWith row info kept).1 = .ok size) :
    (scale.keeping kept.breaks).value value = .ok size := by
  obtain ⟨found, name, hfound, hread⟩ := hvalue
  simp only [callWith, readScaled, hfound, hread] at hcall
  obtain ⟨drawn, hdrawn, hsize⟩ := Result.method_bind_eq_ok_iff.mp hcall
  rw [hdrawn, Except.ok.inj hsize]

end Accessor

namespace Channels

open Scale (Fits)

/-- How icons keep to a range of sizes that ends at `h`. The images are as wide and as high as its end,
rounded up, both where they are named and where they are loaded, and the sizes of the rows whose values
lie in the domain of the scale do not outgrow them. -/
structure IconsFit (c : Context) (props : Props) (lo hi : Number) (l h : Rat) : Prop where
  image : ∃ icon : Accessor, Entries.get? props "getIcon" = some (.accessor icon) ∧
    ∀ row info kept drawn, (icon.callWith row info kept).1 = .ok drawn →
      drawn.lookup "width" = .ok (.int h.ceil) ∧ drawn.lookup "height" = .ok (.int h.ceil)
  loaded : subLayer? props "points-icon" = some (iconLayerProps h.ceil)
  size : ∃ reader scale features,
    Entries.get? props "getIconSize" = some (.accessor (.size reader scale features)) ∧
    ScaleKind.ofJson (c.firstChannel "radiusScale" "sizeScale") = .ok scale.kind ∧
    scale.range = [.ofNumber lo, .ofNumber hi] ∧
    (scale.kind = .linear ∨ scale.kind = .sqrt → ∀ n a b p q r, scale.BetweenEnds n a b p q r →
      scale.InDomain (.ofNumber n)) ∧
    ∀ row info kept value size, Accessor.Finds reader features row kept value →
      scale.InDomain value →
      ((Accessor.size reader scale features).callWith row info kept).1 = .ok (.ofNumber size) →
      Fits scale.kind l h size

variable {c : Context} {props next : Props} {lo hi : Number} {l h : Rat}

theorem markers_icons (hundrawn : Undrawn props) (hmarkers : HasMarkers c)
    (hrun : markers c props = .ok next) : ∃ (icon : Accessor) (size : Int),
    HasIcons c icon size ∧ Entries.get? next "getIcon" = some (.accessor icon) ∧
    subLayer? next "points-icon" = some (iconLayerProps size) ∧
    Entries.get? next "getIconSize" = Entries.get? props "getPointRadius" := by
  obtain ⟨wanted, hwanted, ⟨-, hicons⟩ | ⟨hfalsy, -⟩⟩ := markers_inv hrun
  · obtain ⟨icon, size, hsize, hicon, hlayers, -, hdrawn⟩ := icons_adds hicons
    refine ⟨icon, size, hsize, hicon, ?_, hdrawn hundrawn.radius hundrawn.iconSize⟩
    rw [subLayer?, hlayers]
    rfl
  · rw [eq_visSetting hwanted, hmarkers] at hfalsy
    cases hfalsy

theorem labels_icons {key : String} (hradius : IsAccessor props "getPointRadius")
    (hrun : labels c props = .ok next) (hkey : key = "getIcon" ∨ key = "getIconSize") :
    Entries.get? next key = Entries.get? props key := by
  rcases labels_cases hrun with ⟨-, rfl⟩ | ⟨-, main, secondary, -, hmain⟩
  · rfl
  · obtain ⟨texts, hkept, -⟩ := mainLabel_adds hradius hmain
    rcases hkey with rfl | rfl <;> exact hkept _ (by decide) (by decide)

theorem HasIcons.drawn {icon : Accessor} {size : Int} (hicons : HasIcons c icon size) {row drawn : Json}
    {info : Option Json} {kept : Kept} (hcall : (icon.callWith row info kept).1 = .ok drawn) :
    drawn.lookup "width" = .ok (.int size) ∧ drawn.lookup "height" = .ok (.int size) := by
  obtain ⟨-, range, fallback, masked, hicon⟩ := hicons
  obtain ⟨url, rfl⟩ := Accessor.forIcon_style hicon hcall
  exact ⟨rfl, rfl⟩

theorem HasRadius.ranges (hradius : HasRadius c props)
    (hfield : (c.firstChannel "radiusField" "sizeField").truthy = true)
    (hscale : (c.firstChannel "radiusScale" "sizeScale").truthy = true)
    (hrange : c.vis "radiusRange" = .ok (.list [.ofNumber lo, .ofNumber hi]))
    (hlow : lo.position? = some (.finite l)) (hhigh : hi.position? = some (.finite h))
    (hle : l ≤ h) : ∃ reader scale features,
    Entries.get? props "getPointRadius" = some (.accessor (.size reader scale features)) ∧
    ScaleKind.ofJson (c.firstChannel "radiusScale" "sizeScale") = .ok scale.kind ∧
    scale.Ranges lo hi l h ∧ (scale.kind.interpolates = true → scale.domain.length ≤ 2) := by
  obtain ⟨aggregation, range, a, hfirst, ha, hfound⟩ := hradius hfield
  obtain rfl : .list [.ofNumber lo, .ofNumber hi] = range := by
    rw [Context.firstVis, hrange, Result.ok_bind, if_pos (by rfl)] at hfirst
    exact Except.ok.inj hfirst
  simp only [Accessor.forSize, Result.bind_eq_ok_iff, Result.pure_eq_ok_iff] at ha
  obtain ⟨name, -, scale, hmade, reader, -, rfl⟩ := ha
  obtain ⟨hkind, hentries, hunknown, hdomain⟩ := Accessor.sizeScale_inv hmade hscale rfl
  exact ⟨reader, scale, _, hfound, hkind, ⟨hentries, hunknown, hlow, hhigh, hle⟩, hdomain⟩

/-- Icons whose sizes a column drives over a range fit that range, whichever settings name the column and
its scale, and whatever kind the scale is of but the identity. -/
theorem resolve_iconsFit (hmarkers : HasMarkers c)
    (hfield : (c.firstChannel "radiusField" "sizeField").truthy = true)
    (hscale : (c.firstChannel "radiusScale" "sizeScale").truthy = true)
    (hscaled : c.firstChannel "radiusScale" "sizeScale" ≠ .text "identity")
    (hrange : c.vis "radiusRange" = .ok (.list [.ofNumber lo, .ofNumber hi]))
    (hlow : lo.position? = some (.finite l)) (hhigh : hi.position? = some (.finite h)) (hle : l ≤ h)
    (hrun : resolve c = .ok props) : IconsFit c props lo hi l h := by
  obtain ⟨undrawn, marked, -, hundrawn, hradius, hmarked, hlabels⟩ := resolve_undrawn hrun
  obtain ⟨icon, size, hicons, himage, hlayer, hsize⟩ := markers_icons hundrawn hmarkers hmarked
  obtain rfl := Icon.largestSize_of_range hrange hhigh hfield hicons.1
  obtain ⟨reader, scale, features, hfound, hkind, hranges, hdomain⟩ :=
    hradius.ranges hfield hscale hrange hlow hhigh hle
  have hmarkedRadius := (hundrawn.markers hmarked).radius
  have hidentity : scale.kind ≠ .identity := by
    intro hidentity
    exact hscaled (ScaleKind.eq_text_of_ofJson (hidentity ▸ hkind))
  refine
    { image := ⟨icon, ?_, fun row info kept drawn => hicons.drawn⟩
      loaded := ?_
      size := ⟨reader, scale, features, ?_, hkind, hranges.range,
        fun hroots n a b p q r hn => hn.inDomain hroots, ?_⟩ }
  · rw [labels_icons hmarkedRadius hlabels (.inl rfl), himage]
  · rw [labels_iconLayer hmarkedRadius hlabels, hlayer]
  · rw [labels_icons hmarkedRadius hlabels (.inr rfl), hsize, hfound]
  · intro row info kept value drawn hvalue hdomainValue hcall
    -- Breaks that earlier calls have left say nothing about the range.
    have hkept : (scale.keeping kept.breaks).Ranges lo hi l h :=
      ⟨hranges.range, hranges.unknown, hlow, hhigh, hle⟩
    exact hkept.value_fits hidentity hdomain hdomainValue (Accessor.size_callWith hvalue hcall)

/-- Points drawn in icons of a size from 4 to 40, driven by a column with values from 0 to 100. -/
def sizedIcons (scale : String) : Context where
  layer := ⟨"a", "point", [("visConfig", .object [("customMarkers", .bool true),
      ("radiusRange", .list [.int 4, .int 40])])],
    [("radiusField", .object [("name", .text "n")]), ("radiusScale", .text scale)]⟩
  dataset :=
    let column := Json.object [("attribute", .text "n"), ("min", .int 0), ("max", .int 100)]
    let layers := Json.list [.object [("attributes", .list [column])]]
    ⟨"d", .null, .null, .object [("tilestats", .object [("layers", layers)])], .null⟩
  style := []

theorem resolve_iconsFit_linear : ∃ props, resolve (sizedIcons "linear") = .ok props ∧
    IconsFit (sizedIcons "linear") props (.int 4) (.int 40) 4 40 := by
  obtain ⟨props, hprops⟩ : ∃ props, resolve (sizedIcons "linear") = .ok props := ⟨_, rfl⟩
  have hscaled : (sizedIcons "linear").firstChannel "radiusScale" "sizeScale" ≠ .text "identity" := by
    intro hidentity
    exact absurd (Json.text.inj hidentity) (by decide)
  exact ⟨props, hprops, resolve_iconsFit rfl rfl rfl hscaled rfl rfl rfl (by norm_num) hprops⟩

/-- The identity takes the values of the column for the sizes, however large the images are. -/
theorem identity_outgrows_images : ∃ props reader scale features,
    resolve (sizedIcons "identity") = .ok props ∧
    subLayer? props "points-icon" = some (iconLayerProps 40) ∧
    Entries.get? props "getIconSize" = some (.accessor (.size reader scale features)) ∧
    scale.domain = [.int 0, .int 100] ∧ scale.range = [.int 4, .int 40] ∧
    ((Accessor.size reader scale features).callWith
      (.object [("properties", .object [("n", .int 100)])]) none ⟨none, none⟩).1 =
        .ok (.ofNumber (.int 100)) ∧
    (Number.int 40).less (.int 100) = true :=
  ⟨_, _, _, _, rfl, rfl, rfl, rfl, rfl, rfl, by decide⟩

/-- What a prop gives for a row as a number, if it is an accessor. -/
def drawnNumber? (props : Props) (name : String) (part : Json → Result Json) (row : Json) :
    Option Number :=
  match Entries.get? props name with
  | some (.accessor a) => ((a.callWith row none ⟨none, none⟩).1 >>= part).toOption.bind Json.number?
  | _ => none

/-- A row is drawn in an icon at a size above the width of its image. -/
def outgrowsImage (c : Context) (row : Json) : Bool :=
  match resolve c with
  | .ok props =>
    match drawnNumber? props "getIcon" (·.lookup "width") row,
      drawnNumber? props "getIconSize" pure row with
    | some width, some size => width.less size
    | _, _ => false
  | .error _ => false

/-- Points drawn in icons whose sizes are driven by a column with the given values. -/
def columnIcons (ranges : Json.Fields) (scale : String) (values : List Json) : Context where
  layer := ⟨"a", "point", [("visConfig", .object (("customMarkers", .bool true) :: ranges))],
    [("radiusField", .object [("name", .text "n")]), ("radiusScale", .text scale)]⟩
  dataset := ⟨"d", .null, .null, .list (values.map fun value => .object [("n", value)]), .null⟩
  style := []

/-- A range that is given as that of sizes alone does not reach the images. -/
theorem size_range_outgrows_images :
    outgrowsImage (columnIcons [("sizeRange", .list [.int 4, .int 40])] "linear" [.int 0, .int 100])
      (.object [("n", .int 100)]) = true := by
  decide +kernel

/-- Rounding carries the last of four places over the end of the range. -/
theorem rounding_outgrows_images :
    outgrowsImage (columnIcons [("radiusRange", .list [.float 0.1, .int 14])] "point"
      [.text "a", .text "b", .text "c", .text "d"]) (.object [("n", .text "d")]) = true := by
  decide +kernel

end Channels

end MapLayers
