import MapLayers.Proofs.AccessorDemands

/-!
# What the channels of a layer demand

Where everything that the channels read has its declared shape, each step succeeds or fails by what its
own accessors demand, whatever the props before it. So all channels can be resolved exactly if the
demands of every step are met.
-/

namespace MapLayers.Channels

open Result (Succeeds)
open Declared (listOf optional record)

variable {c : Context} {key : String} {shape : Declared.Shape} {props : Props}

namespace Context

/-- A visual setting, null if there is none. -/
def visAt (c : Context) (key : String) : Json :=
  Json.fieldOf (Json.fieldOf c.layer.config "visConfig").fieldsOrNone key

namespace WellShaped

theorem setting (h : c.WellShaped) (key : String)
    (hkey : Entries.get? Declared.configShapes key = some shape) :
    optional shape (c.setting key) = true := by
  obtain ⟨fields, hfields, hall⟩ := Declared.record_inv h.config
  rw [Context.setting, Json.object.inj hfields]
  exact hall key hkey

theorem channel (h : c.WellShaped) (key : String)
    (hkey : Entries.get? Declared.channelShapes key = some shape) :
    optional shape (c.channel key) = true := by
  obtain ⟨fields, hfields, hall⟩ := Declared.record_inv h.channels
  rw [Context.channel, Json.object.inj hfields]
  exact hall key hkey

theorem visConfig (h : c.WellShaped) :
    optional Declared.visConfig (Json.fieldOf c.layer.config "visConfig") = true :=
  h.setting "visConfig" rfl

theorem visConfig_eq (h : c.WellShaped) :
    c.layer.visConfig = .object (Json.fieldOf c.layer.config "visConfig").fieldsOrNone :=
  Declared.orElse_record h.visConfig

theorem visAt (h : c.WellShaped) (key : String)
    (hkey : Entries.get? Declared.visShapes key = some shape) :
    optional shape (c.visAt key) = true :=
  Declared.optional_field key h.visConfig hkey

theorem vis (h : c.WellShaped) (key : String) : c.vis key = .ok (c.visAt key) := by
  rw [Context.vis, h.visConfig_eq]
  rfl

theorem firstVis (h : c.WellShaped) (key other : String) :
    c.firstVis key other = .ok ((c.visAt key).orElse (c.visAt other)) := by
  simp only [Context.firstVis, h.vis, Result.ok_bind, Json.orElse]
  split <;> rfl

theorem firstVis_range (h : c.WellShaped) {other : String}
    (hkey : Entries.get? Declared.visShapes key = some Declared.numberRange)
    (hother : Entries.get? Declared.visShapes other = some Declared.numberRange) :
    optional Declared.numberRange ((c.visAt key).orElse (c.visAt other)) = true :=
  Declared.optional_orElse (h.visAt _ hkey) (h.visAt _ hother)

theorem firstChannel (h : c.WellShaped) {other : String}
    (hkey : Entries.get? Declared.channelShapes key = some shape)
    (hother : Entries.get? Declared.channelShapes other = some shape) :
    optional shape (c.firstChannel key other) = true :=
  Declared.optional_orElse (h.channel _ hkey) (h.channel _ hother)

end WellShaped

end Context

/-- Where the column of a channel is missing, the props stay as they are. -/
theorem succeeds_if_present {present : Bool} {body : Result Props} {demands : Demands} {data : Json}
    (h : present = true → (Succeeds body ↔ demands.Met data)) :
    Succeeds (if (!present) = true then pure props else body) ↔
      (if present then demands else .none).Met data := by
  cases present with
  | false => simp
  | true => simpa using h rfl

theorem isText_of_aggregationName {value : Json}
    (h : optional Declared.aggregationName value = true) : optional Json.isText value = true := by
  rcases Declared.optional_iff.mp h with rfl | hname
  · rfl
  · obtain ⟨a, -, rfl⟩ := Declared.aggregationName_inv hname
    rfl

theorem isRendererAggregation_succeeds {value : Json}
    (h : optional Declared.aggregationName value = true) : Succeeds (isRendererAggregation value) := by
  rcases Declared.optional_iff.mp h with rfl | hname
  · exact ⟨_, rfl⟩
  · obtain ⟨a, -, rfl⟩ := Declared.aggregationName_inv hname
    exact ⟨_, rfl⟩

/-- Grids and hexagons leave all that can fail to the calls of their accessors. -/
theorem aggregatedColor_succeeds (h : c.WellShaped) : Succeeds (aggregatedColor c props) := by
  have haggregation := h.visAt "colorAggregation" rfl
  have hcolumn := h.channel "colorField" rfl
  unfold aggregatedColor
  dsimp only
  split
  · exact ⟨_, rfl⟩
  · next htruthy =>
    have hfield := Declared.of_truthy hcolumn (by simpa using htruthy)
    obtain ⟨name, hname⟩ := Declared.column_inv hfield
    rw [h.vis, Result.ok_bind]
    refine (isRendererAggregation_succeeds haggregation).bind fun renderer => ?_
    split
    · rw [hname.field_name]
      exact ⟨_, rfl⟩
    · exact (Accessor.forBin_succeeds hfield haggregation).bind fun accessor => ⟨_, rfl⟩

/-- What the filling is made from. -/
def fillSpec (c : Context) : Accessor.ColorSpec :=
  ⟨c.channel "colorField", c.channel "colorScale", c.visAt "colorAggregation", c.visAt "colorRange",
    c.visAt "opacity"⟩

def fillDemands (c : Context) : Demands :=
  if (c.channel "colorField").truthy then (fillSpec c).demands else .none

theorem fillColor_succeeds_iff (h : c.WellShaped) :
    Succeeds (fillColor c props) ↔ (fillDemands c).Met c.data := by
  refine succeeds_if_present fun htruthy => ?_
  simp only [h.vis, Result.ok_bind]
  refine (Result.succeeds_bind_left fun accessor => Result.succeeds_pure _).trans ?_
  exact Accessor.forColor_succeeds_iff h.data
    (Declared.of_truthy (h.channel "colorField" rfl) htruthy) (h.channel "colorScale" rfl)
    (isText_of_aggregationName (h.visAt "colorAggregation" rfl)) (h.visAt "colorRange" rfl)

def colorDemands (c : Context) : Demands :=
  if c.layer.type = "grid" ∨ c.layer.type = "hexagon" then .none else fillDemands c

theorem color_succeeds_iff (h : c.WellShaped) :
    Succeeds (color c props) ↔ (colorDemands c).Met c.data := by
  unfold color colorDemands
  split
  · exact iff_of_true (aggregatedColor_succeeds h) (Demands.none_met _)
  · exact fillColor_succeeds_iff h

/-- The opacity of strokes, as far as the settings say. -/
def strokeOpacityOf (c : Context) : Json :=
  let fallback := if c.layer.type = "point" then c.visAt "opacity" else .int 1
  if (c.visAt "strokeOpacity").isNull then fallback else c.visAt "strokeOpacity"

theorem strokeOpacity_eq (h : c.WellShaped) : strokeOpacity c = .ok (strokeOpacityOf c) := by
  unfold strokeOpacity strokeOpacityOf
  simp only [h.vis, Result.ok_bind]
  split <;> rfl

/-- What strokes are made from. -/
def strokeSpec (c : Context) : Accessor.ColorSpec :=
  ⟨c.channel "strokeColorField", c.channel "strokeColorScale", c.visAt "strokeColorAggregation",
    c.visAt "strokeColorRange", strokeOpacityOf c⟩

def strokeDemands (c : Context) : Demands :=
  if (c.channel "strokeColorField").truthy then (strokeSpec c).demands else .none

theorem strokeColor_succeeds_iff (h : c.WellShaped) :
    Succeeds (strokeColor c props) ↔ (strokeDemands c).Met c.data := by
  refine succeeds_if_present fun htruthy => ?_
  simp only [h.vis, strokeOpacity_eq h, Result.ok_bind]
  refine (Result.succeeds_bind_left fun accessor => Result.succeeds_pure _).trans ?_
  exact Accessor.forColor_succeeds_iff h.data
    (Declared.of_truthy (h.channel "strokeColorField" rfl) htruthy)
    (h.channel "strokeColorScale" rfl) (h.visAt "strokeColorAggregation" rfl)
    (h.visAt "strokeColorRange" rfl)

/-- What the radius of points is made from. -/
def radiusSpec (c : Context) : Accessor.SizeSpec :=
  ⟨c.firstChannel "radiusField" "sizeField", c.firstChannel "radiusScale" "sizeScale",
    c.visAt "sizeAggregation", (c.visAt "radiusRange").orElse (c.visAt "sizeRange")⟩

def radiusDemands (c : Context) : Demands :=
  if (c.firstChannel "radiusField" "sizeField").truthy then (radiusSpec c).demands else .none

theorem pointRadius_succeeds_iff (h : c.WellShaped) :
    Succeeds (pointRadius c props) ↔ (radiusDemands c).Met c.data := by
  refine succeeds_if_present fun htruthy => ?_
  simp only [h.vis, h.firstVis, Result.ok_bind]
  refine (Result.succeeds_bind_left fun accessor => Result.succeeds_pure _).trans ?_
  have hfield : optional Declared.column (c.firstChannel "radiusField" "sizeField") = true :=
    h.firstChannel rfl rfl
  exact Accessor.forSize_succeeds_iff h.data (Declared.of_truthy hfield htruthy)
    (h.firstChannel rfl rfl) (h.visAt "sizeAggregation" rfl) (h.firstVis_range rfl rfl)

/-- What heights are made from. -/
def heightSpec (c : Context) : Accessor.SizeSpec :=
  ⟨(heightChannel c).1, (heightChannel c).2, c.visAt "heightAggregation",
    (c.visAt "heightRange").orElse (c.visAt "sizeRange")⟩

def heightDemands (c : Context) : Demands :=
  if (heightChannel c).1.truthy then
    if (c.visAt "enable3d").truthy then (heightSpec c).demands else .none
  else .none

theorem heightChannel_shapes (h : c.WellShaped) :
    optional Declared.column (heightChannel c).1 = true ∧
      optional Declared.scaleName (heightChannel c).2 = true := by
  unfold heightChannel
  split
  · exact ⟨h.channel _ rfl, h.channel _ rfl⟩
  · exact ⟨h.channel _ rfl, h.channel _ rfl⟩

theorem height_succeeds_iff (h : c.WellShaped) :
    Succeeds (height c props) ↔ (heightDemands c).Met c.data := by
  obtain ⟨hfield, hscale⟩ := heightChannel_shapes h
  refine succeeds_if_present fun htruthy => ?_
  rw [h.vis, Result.ok_bind]
  refine succeeds_if_present fun _ => ?_
  simp only [h.vis, h.firstVis, Result.ok_bind]
  refine (Result.succeeds_bind_left fun accessor => Result.succeeds_pure _).trans ?_
  exact Accessor.forSize_succeeds_iff h.data (Declared.of_truthy hfield htruthy) hscale
    (h.visAt "heightAggregation" rfl) (h.firstVis_range rfl rfl)

/-- A size that is not scaled demands nothing. -/
theorem forSize_unscaled_succeeds {channel : Channel} {field aggregation data : Json}
    (hdata : optional Declared.data data = true) (hfield : Declared.column field = true)
    (haggregation : optional Json.isText aggregation = true) :
    Succeeds (Accessor.forSize channel ⟨field, .null, aggregation, .null⟩ data) := by
  have hmet : (Accessor.SizeSpec.demands ⟨field, .null, aggregation, .null⟩).Met data := by
    simp [Accessor.SizeSpec.demands, Accessor.sizeDomain, Demands.Met, Json.truthy]
  exact (Accessor.forSize_succeeds_iff hdata hfield rfl haggregation rfl).mpr hmet

theorem weight_succeeds (h : c.WellShaped) : Succeeds (weight c props) := by
  unfold weight
  dsimp only
  split
  · exact ⟨_, rfl⟩
  · next htruthy =>
    have hcolumn := h.channel "weightField" rfl
    have hfield := Declared.of_truthy hcolumn (by simpa using htruthy)
    have haggregation := h.visAt "weightAggregation" rfl
    rw [h.vis, Result.ok_bind]
    exact (forSize_unscaled_succeeds h.data hfield haggregation).bind fun accessor => ⟨_, rfl⟩

theorem iconAngle_succeeds (h : c.WellShaped) : Succeeds (iconAngle c props) := by
  unfold iconAngle
  dsimp only
  split
  · exact ⟨_, rfl⟩
  · next htruthy =>
    have hcolumn := h.channel "rotationField" rfl
    have hfield := Declared.of_truthy hcolumn (by simpa using htruthy)
    exact (forSize_unscaled_succeeds h.data hfield rfl).bind fun accessor => ⟨_, rfl⟩

theorem icons_succeeds (h : c.WellShaped) : Succeeds (icons c props) := by
  have hsize : Succeeds (Icon.largestSize c.layer.visConfig (.object c.layer.channels)) := by
    rw [h.visConfig_eq]
    exact Icon.largestSize_succeeds (h.visAt "radius" rfl) (h.visAt "radiusRange" rfl)
  have hcolumn := h.channel "customMarkersField" rfl
  have hrange := h.visAt "customMarkersRange" rfl
  unfold icons
  refine hsize.bind fun size => ?_
  simp only [h.vis, Result.ok_bind]
  refine (Accessor.forIcon_succeeds hcolumn hrange).bind fun icon => ?_
  exact iconAngle_succeeds h

theorem markers_succeeds (h : c.WellShaped) : Succeeds (markers c props) := by
  unfold markers
  rw [h.vis, Result.ok_bind]
  split
  · exact icons_succeeds h
  · split
    · exact ⟨_, rfl⟩
    · exact ⟨_, rfl⟩

theorem search_succeeds {name : String} {columns : List Json}
    (h : ∀ column ∈ columns, column.isObject = true) :
    Succeeds (AggregateColumn.search name columns) := by
  induction columns with
  | nil => exact ⟨name, rfl⟩
  | cons column rest ih =>
    obtain ⟨hcolumn, hrest⟩ := List.forall_mem_cons.mp h
    rw [Json.eq_object_of_isObject hcolumn]
    simp only [AggregateColumn.search, Json.lookup, Result.ok_bind]
    split
    · split
      · exact ⟨_, rfl⟩
      · exact ih hrest
    · exact ih hrest

theorem resolvedSchema_shape (h : c.WellShaped) :
    optional Declared.schema c.dataset.resolvedSchema = true := by
  unfold Dataset.resolvedSchema
  split
  · exact h.schema
  · split
    · next fields hdata =>
      have hshape := h.data
      rw [hdata] at hshape
      have hcollection : Declared.collection (.object fields) = true := by
        simpa [Declared.optional, Json.isNull, Declared.data, listOf] using hshape
      obtain ⟨_, hsame, hfields⟩ := Declared.record_inv hcollection
      have hschema := hfields "schema" rfl
      rw [← Json.object.inj hsame] at hschema
      split
      · next hlist => exact hlist ▸ hschema
      · rfl
    · rfl

theorem aggregateColumn_succeeds (h : c.WellShaped) : Succeeds
    (AggregateColumn.find (.text c.layer.type) c.dataset.provider c.dataset.resolvedSchema) := by
  unfold AggregateColumn.find
  split
  · exact ⟨_, rfl⟩
  · next htruthy =>
    obtain ⟨columns, hcolumns, hobjects⟩ :=
      Declared.elements_of_list (resolvedSchema_shape h) (by simpa using htruthy)
    rw [hcolumns, if_neg (by simp [Json.hashable])]
    split
    · exact search_succeeds hobjects
    · exact ⟨_, rfl⟩

theorem firstLabel_ok {labels : Json} (h : optional (listOf Declared.label) labels = true) :
    ∃ label, firstLabel labels = .ok label ∧ Declared.label label = true := by
  unfold firstLabel
  split
  · next htruthy => exact Declared.first_of_list h htruthy
  · exact ⟨.object [], rfl, rfl⟩

theorem clusterLabelColors_succeeds {label : Json} (h : Declared.label label = true) :
    Succeeds (clusterLabelColors label props) := by
  obtain ⟨fields, rfl, hfields⟩ := Declared.record_inv h
  have houtline := hfields "outlineColor" rfl
  simp only [clusterLabelColors, Json.lookup, Result.ok_bind]
  rcases Declared.optional_iff.mp houtline with hnull | hlist
  · rw [hnull]
    exact ⟨_, rfl⟩
  · split
    · exact ⟨_, rfl⟩
    · cases houtline : Json.fieldOf fields "outlineColor" with
      | list channels => exact ⟨_, rfl⟩
      | _ => simp [houtline, Json.isList] at hlist

theorem clusters_succeeds (h : c.WellShaped) : Succeeds (clusters c props) := by
  obtain ⟨column, hcolumn⟩ := aggregateColumn_succeeds h
  obtain ⟨label, hlabel, hshape⟩ :=
    firstLabel_ok (h.setting "textLabel" rfl)
  simp only [clusters, hcolumn, h.vis, hlabel, Result.ok_bind]
  exact (clusterLabelColors_succeeds hshape).bind fun props => ⟨_, rfl⟩

theorem pointAltitude_succeeds (h : c.WellShaped) : Succeeds (pointAltitude c props) := by
  have hcolumns := h.setting "columns" rfl
  unfold pointAltitude
  rw [Json.orElse_object fun htruthy => Declared.of_truthy hcolumns htruthy]
  simp only [Json.lookup, Result.ok_bind]
  split
  · exact ⟨_, rfl⟩
  · exact ⟨_, rfl⟩

theorem typeSpecific_succeeds (h : c.WellShaped) : Succeeds (typeSpecific c props) := by
  unfold typeSpecific
  split
  · exact pointAltitude_succeeds h
  · split
    · exact clusters_succeeds h
    · exact ⟨_, rfl⟩

theorem labelSettings_succeeds {label : Json} (h : label.isObject = true)
    (settings : List (String × String)) : Succeeds (labelSettings label settings props) := by
  induction settings generalizing props with
  | nil => exact ⟨_, rfl⟩
  | cons setting rest ih =>
    rw [labelSettings, Json.lookup_eq_ok_iff.mpr ⟨h, rfl⟩]
    exact ih

theorem labelRoom_succeeds (h : c.WellShaped) : Succeeds (labelRoom c props) := by
  unfold labelRoom
  split
  · exact ⟨_, rfl⟩
  · rw [h.vis]
    exact ⟨_, rfl⟩

theorem secondaryLabel_succeeds {label : Json} (h : Declared.label label = true) :
    Succeeds (secondaryLabel c label) := by
  obtain ⟨fields, rfl, hfields⟩ := Declared.record_inv h
  have hcolumn := hfields "field" rfl
  simp only [secondaryLabel, Json.lookup, Result.ok_bind]
  split
  · exact ⟨_, rfl⟩
  · next htruthy =>
    have hfield := Declared.of_truthy hcolumn (by simpa using htruthy)
    exact (Accessor.forLabel_succeeds hfield).bind fun text => ⟨_, rfl⟩

theorem mainLabel_succeeds (h : c.WellShaped) {main secondary : Json}
    (hmain : Declared.label main = true) (hsecondary : Declared.label secondary = true)
    (hdrawn : (Json.fieldOf main.fieldsOrNone "field").truthy = true) :
    Succeeds (mainLabel c main secondary props) := by
  have hcolumn : optional Declared.column (Json.fieldOf main.fieldsOrNone "field") = true :=
    Declared.optional_field "field" (Declared.optional_iff.mpr (.inr hmain)) rfl
  have hfield : main.field "field" = .ok (Json.fieldOf main.fieldsOrNone "field") :=
    Json.field_eq_ok fun hnull => by simp [hnull, Json.truthy] at hdrawn
  unfold mainLabel
  refine (labelSettings_succeeds (Declared.isObject_of_record hmain) labelProps).bind fun set => ?_
  rw [hfield, Result.ok_bind]
  refine (Accessor.forLabel_succeeds (Declared.of_truthy hcolumn hdrawn)).bind fun text => ?_
  refine (labelRoom_succeeds h).bind fun room => ?_
  exact (secondaryLabel_succeeds hsecondary).bind fun second => ⟨_, rfl⟩

/-- The labels that are drawn, by the labels there are. -/
def drawLabels (c : Context) (props : Props) (all : List Json) : Result Props :=
  match all.take maxLabels with
  | [] => .ok props
  | main :: others => do
    let field ← main.lookup "field"
    if !field.truthy then return props
    mainLabel c main (others.head?.getD (.object [])) props

theorem drawLabels_succeeds (h : c.WellShaped) {all : List Json}
    (hall : ∀ label ∈ all, Declared.label label = true) : Succeeds (drawLabels c props all) := by
  have htake : ∀ label ∈ all.take maxLabels, Declared.label label = true :=
    fun label hlabel => hall label (List.mem_of_mem_take hlabel)
  unfold drawLabels
  split
  · exact ⟨_, rfl⟩
  · next main others hdrawn =>
    rw [hdrawn] at htake
    obtain ⟨hmain, hothers⟩ := List.forall_mem_cons.mp htake
    rw [Json.lookup_eq_ok_iff.mpr ⟨Declared.isObject_of_record hmain, rfl⟩, Result.ok_bind]
    split
    · exact ⟨_, rfl⟩
    · next htruthy =>
      refine mainLabel_succeeds h hmain ?_ (by simpa using htruthy)
      cases others with
      | nil => rfl
      | cons second rest => exact hothers second (by simp)

theorem labels_eq : labels c props =
    ((if (c.setting "textLabel").truthy then (c.setting "textLabel").elements else pure []) >>=
      drawLabels c props) := by
  unfold labels
  dsimp only
  split <;> rfl

theorem labels_succeeds (h : c.WellShaped) : Succeeds (labels c props) := by
  have hlabels := h.setting "textLabel" rfl
  rw [labels_eq]
  split
  · next htruthy =>
    obtain ⟨all, hall, hshapes⟩ := Declared.elements_of_list hlabels htruthy
    rw [hall]
    exact drawLabels_succeeds h hshapes
  · exact ⟨_, rfl⟩

/-- The steps of the resolution with what each of them demands. -/
def demandTable : List (Step × (Context → Demands)) :=
  [(color, colorDemands), (typeSpecific, fun _ => .none), (pointRadius, radiusDemands),
    (strokeColor, strokeDemands), (height, heightDemands), (weight, fun _ => .none),
    (markers, fun _ => .none), (labels, fun _ => .none)]

theorem steps_eq : steps = demandTable.map Prod.fst := rfl

/-- Everything that the channels of a layer demand. -/
def Context.demands (c : Context) : List Demands := demandTable.map fun entry => entry.2 c

/-- What a step needs does not depend on the steps before it. -/
theorem step_succeeds_iff (h : c.WellShaped) {entry : Step × (Context → Demands)}
    (hentry : entry ∈ demandTable) (props : Props) :
    Succeeds (entry.1 c props) ↔ (entry.2 c).Met c.data := by
  have hfree {r : Result Props} (hr : Succeeds r) : Succeeds r ↔ Demands.none.Met c.data :=
    iff_of_true hr (Demands.none_met _)
  simp only [demandTable, List.mem_cons, List.not_mem_nil, or_false] at hentry
  rcases hentry with rfl | rfl | rfl | rfl | rfl | rfl | rfl | rfl
  · exact color_succeeds_iff h
  · exact hfree (typeSpecific_succeeds h)
  · exact pointRadius_succeeds_iff h
  · exact strokeColor_succeeds_iff h
  · exact height_succeeds_iff h
  · exact hfree (weight_succeeds h)
  · exact hfree (markers_succeeds h)
  · exact hfree (labels_succeeds h)

theorem resolve_succeeds_iff_table (h : c.WellShaped) :
    Succeeds (resolve c) ↔ ∀ entry ∈ demandTable, (entry.2 c).Met c.data := by
  rw [resolve, steps_eq, List.foldlM_map]
  exact Result.succeeds_foldlM fun entry hentry props => step_succeeds_iff h hentry props

theorem fits_strokeOpacityOf (hfill : Color.fits (c.visAt "opacity") = true)
    (hstroke : Color.fits (c.visAt "strokeOpacity") = true) :
    Color.fits (strokeOpacityOf c) = true := by
  have hfull : Color.fits (.int 1) = true := by decide +kernel
  unfold strokeOpacityOf
  dsimp only
  split
  · split
    · exact hfill
    · exact hfull
  · exact hstroke

/-- If opacities become bytes and all features have properties, then the channels can be resolved. -/
theorem resolve_total (h : c.WellShaped) (hfill : Color.fits (c.visAt "opacity") = true)
    (hstroke : Color.fits (c.visAt "strokeOpacity") = true)
    (hfeatures : Domain.bareFeatures c.data = []) : ∃ props, resolve c = .ok props := by
  have hread (name : Json) (shape : Domain.Shape) : Domain.Readable c.data name shape := by
    simp [Domain.Readable, hfeatures]
  have hcolor (spec : Accessor.ColorSpec) (hopacity : Color.fits spec.opacity = true) :
      spec.demands.Met c.data :=
    ⟨by simpa [Accessor.ColorSpec.demands] using hopacity, fun entry _ => hread entry.1 entry.2⟩
  have hsize (spec : Accessor.SizeSpec) : spec.demands.Met c.data :=
    ⟨by simp [Accessor.SizeSpec.demands], fun entry _ => hread entry.1 entry.2⟩
  have hfilled : (fillDemands c).Met c.data := Demands.Met.ite (hcolor _ hfill)
  rw [← Succeeds, resolve_succeeds_iff_table h]
  simp only [demandTable, List.forall_mem_cons, Demands.none_met, true_and]
  refine ⟨?_, Demands.Met.ite (hsize _),
    Demands.Met.ite (hcolor _ (fits_strokeOpacityOf hfill hstroke)),
    Demands.Met.ite (Demands.Met.ite (hsize _)), by simp⟩
  unfold colorDemands
  split
  · exact Demands.none_met _
  · exact hfilled

/-- The channels of a layer of any type can be resolved exactly if what they demand is met: its
opacities become bytes, and the data can be read for the domains that scales take from it. -/
theorem resolve_succeeds_iff (h : c.WellShaped) :
    (∃ props, resolve c = .ok props) ↔ ∀ demands ∈ c.demands, demands.Met c.data := by
  rw [← Succeeds, resolve_succeeds_iff_table h, Context.demands, List.forall_mem_map]

/-- A layer whose colors follow the categories of a column of rows. -/
def tableContext : Context where
  layer := ⟨"a", "mvt", [("visConfig", .object [("opacity", .float 0.5)])],
    [("colorField", .object [("name", .text "kind")]), ("colorScale", .text "ordinal")]⟩
  dataset := ⟨"d", .null, .null, .list [.object [("kind", .text "park")]], .null⟩
  style := []

theorem tableContext_demands_met : tableContext.WellShaped ∧
    (∃ props, resolve tableContext = .ok props) ∧
    ∀ demands ∈ tableContext.demands, demands.Met tableContext.data := by
  have hshaped : tableContext.WellShaped := by constructor <;> decide
  have hprops : ∃ props, resolve tableContext = .ok props :=
    resolve_total hshaped (by decide) (by decide) rfl
  exact ⟨hshaped, hprops, (resolve_succeeds_iff hshaped).mp hprops⟩

/-- A layer whose fill opacity is a finite number of which no byte can be made. -/
def brightContext : Context where
  layer := ⟨"a", "mvt", [("visConfig", .object [("opacity", .float 1e308)])],
    [("colorField", .object [("name", .text "n")])]⟩
  dataset := ⟨"d", .null, .null, .list [], .null⟩
  style := []

/-- A layer in which a feature without properties gives its geometry as a category. -/
def bareContext : Context where
  layer := ⟨"a", "mvt", [], [("colorField", .object [("name", .text "geometry")]),
    ("colorScale", .text "ordinal")]⟩
  dataset := ⟨"d", .null, .null, .object [("features", .list
    [.object [("type", .text "Feature"), ("geometry", .object []), ("properties", .null)]])], .null⟩
  style := []

/-- Both exceptions occur. -/
theorem declared_shapes_may_fail :
    (brightContext.WellShaped ∧ (resolve brightContext).failsBy .overflow = true) ∧
      bareContext.WellShaped ∧ (resolve bareContext).failsBy .type = true := by
  refine ⟨⟨?_, by decide +kernel⟩, ?_, by decide +kernel⟩
  · constructor <;> decide +kernel
  · constructor <;> decide

end MapLayers.Channels
