import MapLayers.LayerOutcome
import MapLayers.Proofs.Results
import MapLayers.Proofs.Tables

/-!
# What can fail below a layer

Whether a layer is malformed, has no dataset, has no data or has an unsupported type is decided once,
before its props are made. Nothing that makes the props fails in one of these ways, however it fails:
reading values, colors, scales, icons, channels, tables and filters.
-/

namespace MapLayers

/-- A fault that decides about an entry of the layer list as a whole. -/
def Fault.isVerdict : Fault → Bool
  | .layer _ | .unsupportedLayerType _ => true
  | _ => false

@[simp] theorem Fault.isVerdict_operation (kind : FaultClass) :
    (operation kind).isVerdict = false := rfl

namespace Result

variable {α β : Type}

/-- Whatever makes a computation fail, it is no verdict about the entry. -/
def NoVerdict (r : Result α) : Prop := ∀ fault, r = .error fault → fault.isVerdict = false

@[simp] theorem noVerdict_ok (a : α) : NoVerdict (.ok a) := failsOnly_ok a

@[simp] theorem noVerdict_pure (a : α) : NoVerdict (pure a : Result α) := failsOnly_ok a

@[simp] theorem noVerdict_error {fault : Fault} :
    NoVerdict (.error fault : Result α) ↔ fault.isVerdict = false := failsOnly_error

@[simp] theorem noVerdict_throw {fault : Fault} :
    NoVerdict (throw fault : Result α) ↔ fault.isVerdict = false := failsOnly_error

@[simp] theorem noVerdict_bind {x : Result α} {f : α → Result β} :
    NoVerdict (x >>= f) ↔ NoVerdict x ∧ ∀ a, x = .ok a → NoVerdict (f a) := failsOnly_bind

@[simp] theorem noVerdict_map {x : Result α} {f : α → β} :
    NoVerdict (x.map f) ↔ NoVerdict x := failsOnly_map

@[simp] theorem noVerdict_functor_map {x : Result α} {f : α → β} :
    NoVerdict (f <$> x) ↔ NoVerdict x := failsOnly_map

@[simp] theorem noVerdict_ite {p : Prop} [Decidable p] {x y : Result α} :
    NoVerdict (if p then x else y) ↔ (p → NoVerdict x) ∧ (¬p → NoVerdict y) := failsOnly_ite

theorem noVerdict_mapM {f : α → Result β} (h : ∀ a, NoVerdict (f a)) (xs : List α) :
    NoVerdict (xs.mapM f) := failsOnly_mapM h xs

theorem noVerdict_foldlM {step : β → α → Result β} (h : ∀ b a, NoVerdict (step b a)) (xs : List α)
    (start : β) : NoVerdict (xs.foldlM step start) := failsOnly_foldlM h xs start

end Result

open Result

namespace Number

@[simp] theorem toFloat_noVerdict (n : Number) : NoVerdict n.toFloat := by
  cases n with
  | int n =>
    unfold toFloat ofInt?
    dsimp only
    split <;> simp [Fault.tooLarge]
  | float x => simp [toFloat]

@[simp] theorem toInt_noVerdict (round : Rat → Int) (n : Number) : NoVerdict (n.toInt round) := by
  unfold toInt
  repeat' split
  all_goals simp [Fault.badValue, Fault.tooLarge]

@[simp] theorem mul_noVerdict (m n : Number) : NoVerdict (m.mul n) := by
  unfold mul combine
  split <;> simp

end Number

namespace Json

@[simp] theorem lookup_noVerdict (value : Json) (key : String) : NoVerdict (value.lookup key) := by
  cases value <;> simp [lookup, Fault.noMember]

@[simp] theorem lookupBy_noVerdict (value key : Json) : NoVerdict (value.lookupBy key) := by
  unfold lookupBy
  repeat' split
  all_goals simp [Fault.noMember, Fault.typeMismatch]

@[simp] theorem itemAt_noVerdict (items : List Json) (position : Int) :
    NoVerdict (itemAt items position) := by
  unfold itemAt
  dsimp only
  repeat' split
  all_goals simp [Fault.badIndex]

@[simp] theorem select_noVerdict (value key : Json) : NoVerdict (value.select key) := by
  unfold select
  repeat' split
  all_goals simp [Fault.missingKey, Fault.typeMismatch]

@[simp] theorem field_noVerdict (value : Json) (key : String) : NoVerdict (value.field key) :=
  select_noVerdict value _

@[simp] theorem item_noVerdict (value : Json) (position : Int) : NoVerdict (value.item position) :=
  select_noVerdict value _

@[simp] theorem elements_noVerdict (value : Json) : NoVerdict value.elements := by
  cases value <;> simp [elements, Fault.typeMismatch]

@[simp] theorem firstItems_noVerdict (value : Json) (count : Nat) :
    NoVerdict (value.firstItems count) := by
  cases value <;> simp [firstItems, Fault.typeMismatch]

@[simp] theorem keyText_noVerdict (value : Json) : NoVerdict value.keyText := by
  cases value <;> simp [keyText, Fault.typeMismatch]

@[simp] theorem addPairs_noVerdict (fields : Fields) (pairs : List Json) :
    NoVerdict (addPairs fields pairs) := by
  induction pairs generalizing fields with
  | nil => simp [addPairs]
  | cons pair rest ih =>
    simp only [addPairs, noVerdict_bind, elements_noVerdict, true_and]
    intro parts _
    split <;> simp [ih, Fault.badValue]

@[simp] theorem asFields_noVerdict (value : Json) : NoVerdict value.asFields := by
  cases value <;> simp [asFields]

@[simp] theorem properNumber?_noVerdict (value : Json) : NoVerdict value.properNumber? := by
  unfold properNumber?
  split <;> simp

@[simp] theorem toFloat_noVerdict (value : Json) : NoVerdict value.toFloat := by
  unfold toFloat
  repeat' split
  all_goals simp [Fault.badValue, Fault.typeMismatch]

@[simp] theorem operand_noVerdict (value : Json) : NoVerdict value.operand := by
  unfold operand
  split <;> simp [Fault.typeMismatch]

end Json

namespace Color

@[simp] theorem channel_noVerdict (value : Json) : NoVerdict (channel value) := by
  simp [channel]

@[simp] theorem ofSpecifier_noVerdict (s : String) : NoVerdict (ofSpecifier s) := by
  unfold ofSpecifier
  dsimp only
  repeat' split
  all_goals simp [Fault.isVerdict]

@[simp] theorem ofJson_noVerdict (value : Json) : NoVerdict (ofJson value) := by
  unfold ofJson
  split <;> simp [Fault.isVerdict]

@[simp] theorem alphaOfOpacity_noVerdict (value : Json) : NoVerdict (alphaOfOpacity value) := by
  cases value <;> simp [alphaOfOpacity]

end Color

namespace Row

@[simp] theorem properties_noVerdict (row : Json) : NoVerdict (properties row) := by
  unfold properties wrappedProperties
  repeat' split
  all_goals simp [Fault.noMember]

@[simp] theorem column_noVerdict (name row : Json) : NoVerdict (column name row) := by
  simp [column]

@[simp] theorem columnValues_noVerdict (data name : Json) : NoVerdict (columnValues data name) := by
  unfold columnValues
  repeat' split
  all_goals simp [noVerdict_mapM]

end Row

@[simp] theorem Tally.ofList_noVerdict (values : List Json) : NoVerdict (ofList values) := by
  simp [ofList, Fault.typeMismatch]

namespace Statistics

@[simp] theorem numbers_noVerdict (values : List Json) : NoVerdict (numbers values) := by
  induction values with
  | nil => simp [numbers]
  | cons value rest ih =>
    simp only [numbers, noVerdict_bind, Json.properNumber?_noVerdict, true_and]
    intro n _
    split <;> simp [ih]

@[simp] theorem Aggregation.ofJson_noVerdict (value : Json) : NoVerdict (ofJson value) := by
  unfold ofJson
  repeat' split
  all_goals simp [Fault.isVerdict, Fault.typeMismatch]

end Statistics

namespace Domain

@[simp] theorem search_noVerdict (name : Json) (entries : List Json) :
    NoVerdict (attribute?.search name entries) := by
  induction entries with
  | nil => simp [attribute?.search]
  | cons entry rest ih => simp [attribute?.search, ih]

@[simp] theorem attribute?_noVerdict (data : Json.Fields) (name : Json) :
    NoVerdict (attribute? data name) := by
  simp [attribute?]

@[simp] theorem ofStatistics_noVerdict (column : Json) (shape : Shape) :
    NoVerdict (ofStatistics column shape) := by
  simp [ofStatistics, noVerdict_mapM]

@[simp] theorem ofValues_noVerdict (values : List Json) (shape : Shape) :
    NoVerdict (ofValues values shape) := by
  cases shape <;> simp [ofValues, categories]

@[simp] theorem ofData_noVerdict (data name : Json) (shape : Shape) :
    NoVerdict (ofData data name shape) := by
  unfold ofData
  split
  · split
    · simp only [noVerdict_bind, attribute?_noVerdict, true_and]
      intro found _
      split <;> simp
    · simp
  · simp

end Domain

@[simp] theorem ScaleKind.ofJson_noVerdict (value : Json) : NoVerdict (ofJson value) := by
  unfold ofJson
  repeat' split
  all_goals simp [Fault.isVerdict, Fault.typeMismatch]

@[simp] theorem Scale.rangeEntries_noVerdict (value : Json) : NoVerdict (rangeEntries value) := by
  cases value <;> simp [rangeEntries]

@[simp] theorem Reader.new_noVerdict (channel : Channel) (name aggregation : Json) :
    NoVerdict (new channel name aggregation) := by
  unfold new keysFor
  repeat' split
  all_goals simp [Fault.noMember]

@[simp] theorem TextFormat.ofJson_noVerdict (value : Json) : NoVerdict (ofJson value) := by
  unfold ofJson
  split <;> simp [Fault.typeMismatch]

namespace Icon

@[simp] theorem addMarkers_noVerdict (style : Icon.Style) (markers : Markers)
    (entries : List Json) : NoVerdict (addMarkers style markers entries) := by
  induction entries generalizing markers with
  | nil => simp [addMarkers]
  | cons entry rest ih => simp [addMarkers, ih, Fault.typeMismatch]

@[simp] theorem markersOf_noVerdict (style : Icon.Style) (entries : Json) :
    NoVerdict (markersOf style entries) := by
  simp [markersOf]

@[simp] theorem largestSize_noVerdict (visConfig channels : Json) :
    NoVerdict (largestSize visConfig channels) := by
  simp [largestSize]

end Icon

namespace Accessor

@[simp] theorem colorScale_noVerdict (name kind colorRange data : Json) :
    NoVerdict (colorScale name kind colorRange data) := by
  unfold colorScale
  simp only [noVerdict_bind, ScaleKind.ofJson_noVerdict, true_and]
  intro scaleKind _
  split
  · simp
  · simp only [noVerdict_bind, Json.lookup_noVerdict, true_and]
    intro listed _
    split <;> simp [noVerdict_mapM]

@[simp] theorem forColor_noVerdict (channel : Channel) (spec : ColorSpec) (data : Json) :
    NoVerdict (forColor channel spec data) := by
  simp [forColor]

@[simp] theorem sizeScale_noVerdict (name : Json) (spec : SizeSpec) (data : Json) :
    NoVerdict (sizeScale name spec data) := by
  simp [sizeScale]

@[simp] theorem forSize_noVerdict (channel : Channel) (spec : SizeSpec) (data : Json) :
    NoVerdict (forSize channel spec data) := by
  simp [forSize]

@[simp] theorem forLabel_noVerdict (field data : Json) : NoVerdict (forLabel field data) := by
  simp [forLabel]

@[simp] theorem forBin_noVerdict (field aggregation : Json) :
    NoVerdict (forBin field aggregation) := by
  simp [forBin]

@[simp] theorem otherImage_noVerdict (fallback range : Json) :
    NoVerdict (otherImage fallback range) := by
  simp [otherImage]

@[simp] theorem forIcon_noVerdict (field range fallback : Json) (style : Icon.Style)
    (data : Json) : NoVerdict (forIcon field range fallback style data) := by
  simp [forIcon]

end Accessor

namespace AggregateColumn

@[simp] theorem search_noVerdict (name : String) (columns : List Json) :
    NoVerdict (search name columns) := by
  induction columns with
  | nil => simp [search]
  | cons column rest ih =>
    simp only [search, noVerdict_bind, Json.lookup_noVerdict, true_and]
    intro found _
    split <;> simp [ih]

@[simp] theorem find_noVerdict (layerType provider schema : Json) :
    NoVerdict (find layerType provider schema) := by
  simp [find, Fault.typeMismatch]

end AggregateColumn

namespace Dataset

@[simp] theorem isAmong_noVerdict (names : List String) (value : Json) :
    NoVerdict (isAmong names value) := by
  simp [isAmong, Fault.typeMismatch]

@[simp] theorem isFilteredRemotely_noVerdict (d : Dataset) : NoVerdict d.isFilteredRemotely := by
  simp [isFilteredRemotely]

end Dataset

namespace Channels

variable (c : Context) (props : Props)

@[simp] theorem vis_noVerdict (key : String) : NoVerdict (c.vis key) := by
  simp [Context.vis]

@[simp] theorem firstVis_noVerdict (key other : String) : NoVerdict (c.firstVis key other) := by
  simp [Context.firstVis]

@[simp] theorem color_noVerdict : NoVerdict (color c props) := by
  unfold color
  split <;> simp [aggregatedColor, fillColor, isRendererAggregation]

@[simp] theorem strokeOpacity_noVerdict : NoVerdict (strokeOpacity c) := by
  simp [strokeOpacity]

@[simp] theorem strokeColor_noVerdict : NoVerdict (strokeColor c props) := by
  simp [strokeColor]

@[simp] theorem pointRadius_noVerdict : NoVerdict (pointRadius c props) := by
  simp [pointRadius]

@[simp] theorem height_noVerdict : NoVerdict (height c props) := by
  simp [height]

@[simp] theorem weight_noVerdict : NoVerdict (weight c props) := by
  simp [weight]

@[simp] theorem firstLabel_noVerdict (labels : Json) : NoVerdict (firstLabel labels) := by
  simp [firstLabel]

@[simp] theorem clusterLabelColors_noVerdict (label : Json) :
    NoVerdict (clusterLabelColors label props) := by
  simp [clusterLabelColors]

@[simp] theorem typeSpecific_noVerdict : NoVerdict (typeSpecific c props) := by
  simp [typeSpecific, pointAltitude, clusters]

@[simp] theorem iconAngle_noVerdict : NoVerdict (iconAngle c props) := by
  simp [iconAngle]

@[simp] theorem markers_noVerdict : NoVerdict (markers c props) := by
  simp [markers, icons]

@[simp] theorem labelSettings_noVerdict (label : Json) (settings : List (String × String)) :
    NoVerdict (labelSettings label settings props) := by
  induction settings generalizing props with
  | nil => simp [labelSettings]
  | cons entry rest ih => simp [labelSettings, ih]

@[simp] theorem labelRoom_noVerdict : NoVerdict (labelRoom c props) := by
  unfold labelRoom
  split <;> simp

@[simp] theorem secondaryLabel_noVerdict (label : Json) : NoVerdict (secondaryLabel c label) := by
  simp [secondaryLabel]

@[simp] theorem mainLabel_noVerdict (main secondary : Json) :
    NoVerdict (mainLabel c main secondary props) := by
  simp [mainLabel]

@[simp] theorem labels_noVerdict : NoVerdict (labels c props) := by
  unfold labels
  simp only [noVerdict_bind, noVerdict_ite, Json.elements_noVerdict, noVerdict_pure, true_and]
  -- The authored labels, or none: what follows is the same.
  constructor
  all_goals
    intro _ all _
    split <;> simp

theorem resolve_noVerdict : NoVerdict (resolve c) := by
  simp [resolve, steps]

end Channels

namespace PropTable

/-- A rule that gives no verdict where it is a function. -/
def NeverVerdict (value : Json) : PropRule → Prop
  | .transform apply => NoVerdict (apply value)
  | _ => True

mutual

theorem applyRule_noVerdict {key : PropKey} {value : Json} {target : Json.Fields}
    {rule : PropRule} {fault : Fault} (h : RuleHolds NeverVerdict value rule)
    (hfault : (applyRule key value target rule).fault = some fault) : fault.isVerdict = false := by
  match rule with
  | .rename _ => simp [applyRule] at hfault
  | .transform apply =>
    unfold applyRule at hfault
    split at hfault
    · simp at hfault
    · next found hfound => exact h fault (hfound.trans (by rw [Option.some.inj hfault]))
  | .nested table =>
    unfold applyRule at hfault
    exact applyEntries_noVerdict h hfault
  | .invalid found =>
    rw [← Option.some.inj hfault]
    rfl

/-- What stops the application of a table is a fault of one of its functions, or a rule that is none. -/
theorem applyEntries_noVerdict {source : Json} {target : Json.Fields}
    {table : List (PropKey × PropRule)} {fault : Fault} (h : EntriesHold NeverVerdict source table)
    (hfault : (applyEntries source target table).fault = some fault) :
    fault.isVerdict = false := by
  match table with
  | [] => simp [applyEntries] at hfault
  | (key, rule) :: rest =>
    obtain ⟨hrule, hrest⟩ := h
    unfold applyEntries at hfault
    dsimp only at hfault
    split at hfault
    · exact applyEntries_noVerdict hrest hfault
    · next hnull =>
      split at hfault
      · exact applyRule_noVerdict (hrule (by simpa using hnull)) hfault
      · exact applyEntries_noVerdict hrest hfault

end

end PropTable

namespace LayerType

open PropTable (EntriesHold NeverVerdict RuleHolds)

@[simp] theorem colorRange_noVerdict (value : Json) : NoVerdict (colorRange value) := by
  simp [colorRange, noVerdict_mapM]

@[simp] theorem colorAggregation_noVerdict (value : Json) : NoVerdict (colorAggregation value) := by
  simp [colorAggregation, Fault.typeMismatch]

@[simp] theorem inMeters_noVerdict (prop : String) (value : Json) :
    NoVerdict (inMeters prop value) := by
  unfold inMeters
  split <;>
    simp only [noVerdict_bind, noVerdict_pure, Json.operand_noVerdict, Number.mul_noVerdict,
      implies_true, and_self]

theorem ownTable_noVerdict (type : LayerType) (source : Json) :
    EntriesHold NeverVerdict source type.ownTable := by
  cases type <;>
    simp [ownTable, cellTable, aggregationTable, coverageTable, field, position, depthParameters,
      EntriesHold, RuleHolds, NeverVerdict]

theorem table_noVerdict (type : LayerType) (markers : Bool) (source : Json) :
    EntriesHold NeverVerdict source (type.table markers) := by
  have hshared : EntriesHold NeverVerdict source sharedTable := by
    simp [sharedTable, field, position, EntriesHold, RuleHolds, NeverVerdict]
  have hmarkers : EntriesHold NeverVerdict source markerTable := by
    simp [markerTable, field, EntriesHold, RuleHolds, NeverVerdict]
  unfold table
  refine PropTable.mergeEntries_holds ?_ (ownTable_noVerdict type source)
  split
  · exact PropTable.mergeEntries_holds hshared hmarkers
  · exact hshared

@[simp] theorem hasMarkers_noVerdict (config : Json.Fields) : NoVerdict (hasMarkers config) := by
  simp [hasMarkers]

@[simp] theorem firstProps_noVerdict (type : LayerType) (config : Json.Fields)
    (dataset : Dataset) : NoVerdict (type.firstProps config dataset) := by
  unfold firstProps indexProps
  split <;> simp

end LayerType

namespace Style

@[simp] theorem withOpacity_noVerdict (vis : Json) (props : Json.Fields)
    (entry : String × String) : NoVerdict (withOpacity vis props entry) := by
  unfold withOpacity
  split <;> simp

theorem props_noVerdict (config : Json.Fields) (type : LayerType) (markers : Bool) :
    NoVerdict (props config (type.table markers)) := by
  unfold props
  dsimp only
  split
  · next fault hfault =>
    simpa using PropTable.applyEntries_noVerdict (type.table_noVerdict markers _) hfault
  · simp [withOpacities, noVerdict_foldlM]

end Style

namespace Blending

@[simp] theorem mode_noVerdict (blending : Json) : NoVerdict (mode blending) := by
  simp [mode, Fault.typeMismatch]

@[simp] theorem parametersProp_noVerdict (blending parameters : Json) :
    NoVerdict (parametersProp blending parameters) := by
  simp [parametersProp]

@[simp] theorem interactionProps_noVerdict (interaction : Json) :
    NoVerdict (interactionProps interaction) := by
  simp [interactionProps]

end Blending

namespace Assembly

theorem producer_noVerdict (a : Assembly) {produce : Assembly → Result Part}
    (h : produce ∈ producers) : NoVerdict (produce a) := by
  simp only [producers, List.mem_cons, List.not_mem_nil, or_false] at h
  rcases h with rfl | rfl | rfl | rfl | rfl | rfl | rfl
  · simp [base]
  · simp [defaults]
  · simp [interaction]
  · simp [styled]
  · simp [channels, Channels.resolve_noVerdict]
  · simp [parameters]
  · simp [loading]

/-- The props of an entry are assembled, or fail without a verdict about it. -/
theorem run_noVerdict (a : Assembly) : NoVerdict a.run.props := by
  have hrun : ∀ (rest : List (Assembly → Result Part)) (start : Progress),
      (∀ produce ∈ rest, NoVerdict (produce a)) → NoVerdict start.props →
        NoVerdict (rest.foldl (fun p produce => p.next a produce) start).props := by
    intro rest
    induction rest with
    | nil => exact fun start _ hstart => hstart
    | cons produce rest ih =>
      intro start hproduce hstart
      rw [List.foldl_cons]
      refine ih _ (fun other hother => hproduce other (List.mem_cons_of_mem _ hother)) ?_
      have hnext := hproduce produce (by simp)
      unfold Progress.next
      split
      · exact hstart
      · split
        · simp
        · next fault hfault => simpa [hfault] using hnext
  exact hrun producers _ (fun produce hproduce => a.producer_noVerdict hproduce) (by simp)

end Assembly

theorem LayerOutcome.describe_noVerdict (a : Assembly) (props : Props) :
    NoVerdict (describe a props) := by
  have hfilters : NoVerdict (filtersFor a.surroundings.filters a.dataset) := by
    unfold filtersFor
    split
    · simp
    · simp only [noVerdict_bind, Dataset.isFilteredRemotely_noVerdict, true_and]
      intro remote _
      repeat' split
      all_goals simp
  simp [describe, hfilters]

end MapLayers
