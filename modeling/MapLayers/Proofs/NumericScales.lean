import MapLayers.Proofs.Bisection
import MapLayers.Proofs.Palettes
import MapLayers.Proofs.SizeBounds

/-!
# Numeric scales over the statistics of tiles

The domain of a numeric scale over tiles is the smallest and the largest number of its column, as far as
the statistics say anything about them. Each kind of scale takes a missing bound in its own way: continuous
scales and those of quantiles do without it, the other two fail. A continuous scale fails where a mix of
its colors leaves the range of floating-point numbers.
-/

namespace MapLayers

open Result (Succeeds)

/-- Scales that place numbers on an axis or in buckets. -/
def ScaleKind.isNumeric : ScaleKind → Bool
  | linear | log | sqrt | quantile | quantize | custom => true
  | _ => false

namespace Json

/-- How a number of a document is read. -/
structure Reads (value : Json) (n : Number) (x : Float) : Prop where
  number : value.number? = some n
  operand : value.operand = .ok n
  proper : value.properNumber? = .ok (some n)
  float : n.toFloat = .ok x
  toFloat : value.toFloat = .ok x

theorem toFloat_of_proper {value : Json} {n : Number} (h : value.properNumber? = .ok (some n)) :
    Succeeds n.toFloat := by
  unfold properNumber? at h
  split at h
  · simp only [Result.bind_eq_ok_iff, Result.pure_eq_ok_iff] at h
    obtain ⟨x, hx, hfound⟩ := h
    split at hfound
    · simp at hfound
    · obtain rfl := Option.some.inj hfound
      exact ⟨x, hx⟩
  · simp at h

end Json

namespace Declared

/-- A finite number that a floating-point one can stand for. -/
def number : Shape := fun value => finite value && fitsDouble value

/-- What the statistics of a column say about its numbers. -/
def extent : Shape := record [("min", number), ("max", number)]

theorem number_inv {value : Json} (h : number value = true) : ∃ n x, value.Reads n x := by
  obtain ⟨hfinite, hfits⟩ := Bool.and_eq_true_iff.mp h
  cases value with
  | int n =>
    obtain ⟨x, hx⟩ := Option.isSome_iff_exists.mp hfits
    have hfloat : (Number.int n).toFloat = .ok x := by simp [Number.toFloat, Number.ofInt?, hx]
    exact ⟨.int n, x, rfl, rfl, Json.properNumber?_of_toFloat (a := .int n) rfl hfloat, hfloat, hfloat⟩
  | float x =>
    obtain ⟨q, hq⟩ : ∃ q, Binary64.value? x = some q := ⟨_, if_pos hfinite⟩
    exact ⟨.float x, x, rfl, rfl,
      Json.properNumber?_of_toFloat (a := .float x) (Number.position?_float.mpr hq) rfl, rfl, rfl⟩
  | _ => simp [finite] at hfinite

theorem reads_ofNumber {n : Number} (h : number (.ofNumber n) = true) :
    ∃ x, (Json.ofNumber n).Reads n x := by
  obtain ⟨m, x, hreads⟩ := number_inv h
  obtain rfl : n = m := Option.some.inj ((Json.number?_ofNumber n).symm.trans hreads.number)
  exact ⟨x, hreads⟩

variable {bound : Json}

theorem bound_cases (h : optional number bound = true) :
    bound = .null ∨ bound ≠ .null ∧ ∃ n x, bound.Reads n x := by
  rcases optional_iff.mp h with hnull | hnumber
  · exact .inl hnull
  · obtain ⟨n, x, hreads⟩ := number_inv hnumber
    refine .inr ⟨?_, n, x, hreads⟩
    rintro rfl
    exact absurd hreads.number (by simp [Json.number?])

theorem fitsDouble_of_bound (h : optional number bound = true) : fitsDouble bound = true := by
  rcases optional_iff.mp h with rfl | hnumber
  · rfl
  · exact (Bool.and_eq_true_iff.mp hnumber).2

theorem toFloat_of_bound (h : optional number bound = true) :
    Succeeds bound.toFloat ↔ bound ≠ .null := by
  rcases bound_cases h with rfl | ⟨hne, n, x, hreads⟩
  · exact iff_of_false (Result.not_succeeds_error _) (fun h => h rfl)
  · exact iff_of_true ⟨x, hreads.toFloat⟩ hne

end Declared

namespace Scale

/-- A color made from some others is one of them or a mix of two. -/
inductive MadeFrom (colors : List Json) : Json → Prop
  | listed {color : Json} (hcolor : color ∈ colors) : MadeFrom colors color
  | mixed {first second : Json} {a b c : Color} {t : Rat} (hfirst : first ∈ colors)
      (hsecond : second ∈ colors) (ha : Color.ofJson first = .ok a) (hb : Color.ofJson second = .ok b)
      (hmixed : Color.mixed? a b t = some c) : MadeFrom colors c.toJson

/-- The scale gives the unknown color or one made from its range, unless it is stuck. -/
structure Answers (s : Scale) (value : Json) (stuck : Prop) : Prop where
  made : ∀ result, s.value value = .ok result → result = s.unknown ∨ MadeFrom s.range result
  succeeds_iff : Succeeds (s.value value) ↔ ¬stuck

/-- The domain of the scale has two bounds, each of which may be missing. -/
structure Bounded (s : Scale) (low high : Json) : Prop where
  domain : s.domain = [low, high]
  low : Declared.optional Declared.number low = true
  high : Declared.optional Declared.number high = true

variable {s : Scale} {value low high : Json} {n : Number} {x : Float} {stuck : Prop}

theorem answers_unknown (h : s.value value = pure s.unknown) (hstuck : ¬stuck) :
    Answers s value stuck := by
  constructor
  · intro result hresult
    rw [h] at hresult
    exact .inl (Except.ok.inj hresult).symm
  · rw [h]
    exact iff_of_true ⟨_, rfl⟩ hstuck

theorem bucketValue_eq (hvalue : value.Reads n x) : s.bucketValue value =
    if s.hasBuckets then (s.bucket n).map fun i => (s.range[i]?).getD s.unknown
    else .ok s.unknown := by
  simp only [bucketValue, hvalue.proper, Result.ok_bind]
  split
  · cases s.bucket n <;> rfl
  · rfl

theorem answers_bucket (hkind : s.kind = .quantile ∨ s.kind = .quantize ∨ s.kind = .custom)
    (hvalue : value.Reads n x) (hstuck : s.hasBuckets = true → (Succeeds (s.bucket n) ↔ ¬stuck))
    (hempty : s.hasBuckets = false → ¬stuck) : Answers s value stuck := by
  have hrun : s.value value = s.bucketValue value := by
    rcases hkind with h | h | h <;> simp only [Scale.value, h]
  rw [bucketValue_eq hvalue] at hrun
  constructor
  · intro result hresult
    rw [hrun] at hresult
    split at hresult
    · obtain ⟨i, -, rfl⟩ := Result.map_eq_ok_iff.mp hresult
      cases hentry : s.range[i]? with
      | none => exact .inl rfl
      | some color => exact .inr (.listed (List.mem_of_getElem? hentry))
    · exact .inl (Except.ok.inj hresult).symm
  · rw [hrun]
    split
    · next hbuckets => rw [Result.succeeds_map, hstuck hbuckets]
    · next hnone => exact iff_of_true ⟨_, rfl⟩ (hempty (Bool.eq_false_iff.mpr hnone))

theorem properFloats_succeeds {values : List Json} (h : ∀ v ∈ values, Declared.fitsDouble v = true) :
    Succeeds (properFloats values) := by
  induction values with
  | nil => exact ⟨[], rfl⟩
  | cons v rest ih =>
    obtain ⟨hv, hrest⟩ := List.forall_mem_cons.mp h
    obtain ⟨found, hfound⟩ := Json.properNumber?_succeeds_iff.mpr hv
    obtain ⟨others, hothers⟩ := ih hrest
    rw [properFloats, hfound, Result.ok_bind]
    cases found with
    | none => exact ⟨others, hothers⟩
    | some n =>
      obtain ⟨x, hx⟩ := Json.toFloat_of_proper hfound
      exact ⟨x :: others, by simp [hx, hothers]⟩

theorem upperBound_isAbove_succeeds (x : Number) (stops : List Number) :
    Succeeds (upperBound (isAbove x) stops) := by
  cases h : upperBound (isAbove x) stops with
  | ok i => exact ⟨i, rfl⟩
  | error fault =>
    have hnever : Result.FailsOnly (fun _ => False) (upperBound (isAbove x) stops) :=
      upperBound_failsOnly fun _ _ => Result.failsOnly_ok _
    exact (hnever fault h).elim

theorem answers_quantile (hkind : s.kind = .quantile) (hfresh : s.keptBreaks = none)
    (hdomain : ∀ v ∈ s.domain, Declared.fitsDouble v = true) (hvalue : value.Reads n x) :
    Answers s value False := by
  refine answers_bucket (.inl hkind) hvalue (fun _ => ?_) (fun _ => not_false)
  refine iff_of_true ?_ not_false
  obtain ⟨numbers, hnumbers⟩ := properFloats_succeeds hdomain
  have hbreaks : Succeeds s.breaks := by
    simp only [breaks, hfresh, quantileBreaks, hnumbers, Result.ok_bind]
    split <;> exact ⟨_, rfl⟩
  simp only [bucket, hkind]
  refine hbreaks.bind fun breaks => ?_
  rw [hvalue.float, Result.ok_bind]
  exact upperBound_isAbove_succeeds _ _

theorem answers_quantize (hkind : s.kind = .quantize) (hbounded : s.Bounded low high)
    (hvalue : value.Reads n x) :
    Answers s value (s.range ≠ [] ∧ (low = .null ∨ high = .null)) := by
  have hbuckets : s.hasBuckets = !s.range.isEmpty := by
    simp [hasBuckets, hkind, hbounded.domain]
  refine answers_bucket (.inr (.inl hkind)) hvalue (fun hsome => ?_) (fun hnone => ?_)
  · have hrange : s.range ≠ [] := by simpa [hbuckets] using hsome
    have hbreaks : Succeeds (quantizeBreaks s.domain s.range.length) ↔ low ≠ .null ∧ high ≠ .null := by
      simp only [quantizeBreaks, hbounded.domain, List.head?_cons, List.getLast?_cons_cons,
        List.getLast?_singleton, Option.getD_some]
      rw [Result.succeeds_bind_iff, Declared.toFloat_of_bound hbounded.low]
      intro start
      rw [Result.succeeds_bind_left (fun stop => Result.succeeds_pure _),
        Declared.toFloat_of_bound hbounded.high]
    simp only [bucket, hkind]
    rw [Result.succeeds_bind_left, hbreaks]
    · simp [hrange]
    · intro breaks
      rw [hvalue.float, Result.ok_bind]
      exact upperBound_isAbove_succeeds _ _
  · have hrange : s.range = [] := by simpa [hbuckets] using hnone
    simp [hrange]

def Below (value bound : Json) : Prop :=
  ∃ m n, value.number? = some m ∧ bound.number? = some n ∧ m.less n = true

theorem isAboveJson_of_reads {bound : Json} {m : Number} {y : Float} (h : bound.Reads m y) :
    isAboveJson n bound = .ok (n.less m) := by
  rw [isAboveJson, h.operand, Result.ok_bind]
  rfl

theorem answers_custom (hkind : s.kind = .custom) (hbounded : s.Bounded low high)
    (hvalue : value.Reads n x) :
    Answers s value (high = .null ∨ low = .null ∧ Below value high) := by
  refine answers_bucket (.inr (.inr hkind)) hvalue (fun _ => ?_) (fun hnone => ?_)
  · simp only [bucket, hkind, hbounded.domain, upperBound_pair]
    rcases Declared.bound_cases hbounded.high with rfl | ⟨hsome, m, y, hm⟩
    · exact iff_of_false (Result.not_succeeds_error _) (fun h => h (.inl rfl))
    have hbelow : Below value high ↔ n.less m = true := by
      simp [Below, hvalue.number, hm.number]
    rw [isAboveJson_of_reads hm, Result.ok_bind, hbelow]
    cases n.less m with
    | false => simp [hsome]
    | true =>
      rcases Declared.bound_cases hbounded.low with rfl | ⟨hne, k, z, hk⟩
      · exact iff_of_false (Result.not_succeeds_error _) (by simp)
      · rw [isAboveJson_of_reads hk]
        refine iff_of_true ?_ (by simp [hsome, hne])
        cases n.less k <;> exact ⟨_, rfl⟩
  · simp [hasBuckets, hkind] at hnone

def axis? (kind : ScaleKind) (value : Json) : Option Float :=
  value.toFloat.toOption.bind (transform? kind)

theorem stops?_bound {kind : ScaleKind} {bound : Json} (rest : List Json)
    (hbound : Declared.optional Declared.number bound = true) : stops? kind (bound :: rest) =
      match axis? kind bound with
      | none => .ok none
      | some position => (stops? kind rest).map (Option.map (.float position :: ·)) := by
  rw [stops?, axis?]
  rcases Declared.bound_cases hbound with rfl | ⟨-, n, x, hreads⟩
  · rfl
  · rw [hreads.toFloat]
    simp only [Result.toOption_ok, Option.bind_some]
    cases transform? kind x with
    | none => rfl
    | some position => cases stops? kind rest <;> rfl

theorem stops?_bounds {kind : ScaleKind} (hlow : Declared.optional Declared.number low = true)
    (hhigh : Declared.optional Declared.number high = true) : stops? kind [low, high] =
      .ok ((axis? kind low).bind fun start => (axis? kind high).map fun stop =>
        [.float start, .float stop]) := by
  rw [stops?_bound [high] hlow, stops?_bound [] hhigh]
  cases axis? kind low with
  | none => rfl
  | some start => cases axis? kind high <;> rfl

theorem mix_colors {first second : Json} {a : Color} (ha : Color.ofJson first = .ok a) (t : Float) :
    mix first second (.float t) = (Color.blend first second (.float t)).map Color.toJson := by
  have hfirst : first.properNumber? = .ok none := by
    cases first with
    | text s => rfl
    | list items => rfl
    | _ => simp [Color.ofJson] at ha
  rw [mix, hfirst]
  rfl

/-- How far a value lies on the way between two bounds, if all of them have a position. -/
def share? (kind : ScaleKind) (low high value : Json) : Option Float := do
  let start ← axis? kind low
  let stop ← axis? kind high
  let x ← axis? kind value
  return Interpolation.share start stop x

/-- The mix of the first two colors at the value leaves the range of floating-point numbers. -/
def Overflows (kind : ScaleKind) (colors : List Json) (low high value : Json) : Prop :=
  ∃ first second rest a b t, colors = first :: second :: rest ∧ Color.ofJson first = .ok a ∧
    Color.ofJson second = .ok b ∧ share? kind low high value = some t ∧
    (Binary64.value? t).bind (Color.mixed? a b) = none

theorem continuousValue_bounds {first second : Json} {rest : List Json}
    (hbounded : s.Bounded low high) (hrange : s.range = first :: second :: rest)
    (hvalue : value.Reads n x) :
    s.continuousValue value =
      match share? s.kind low high value with
      | none => .ok s.unknown
      | some t => mix first second (.float t) := by
  have haxis : axis? s.kind value = transform? s.kind x := by
    rw [axis?, hvalue.toFloat]
    rfl
  have hlong : ((decide ([low, high].length < 2)) ||
      decide ((first :: second :: rest).length < 2)) = false := by simp
  simp only [continuousValue, hvalue.proper, hvalue.float, Result.ok_bind, hbounded.domain, hrange, hlong,
    stops?_bounds hbounded.low hbounded.high, share?, haxis]
  cases transform? s.kind x with
  | none => cases axis? s.kind low <;> cases axis? s.kind high <;> rfl
  | some position =>
    cases axis? s.kind low with
    | none => rfl
    | some start =>
      cases axis? s.kind high with
      | none => rfl
      | some stop =>
        simp only [Option.bind_eq_bind, Option.bind_some, Option.map_some,
          Interpolation.interpolate?_two, Option.pure_def]
        cases mix first second (.float (Interpolation.share start stop position)) <;> rfl

theorem answers_mix {first second : Json} {rest : List Json} {a b : Color} {t : Float}
    (hrange : s.range = first :: second :: rest) (ha : Color.ofJson first = .ok a)
    (hb : Color.ofJson second = .ok b) (hrun : s.value value = mix first second (.float t))
    (hstuck : stuck ↔ (Binary64.value? t).bind (Color.mixed? a b) = none) : Answers s value stuck := by
  have hblend := Color.blend_toOption ha hb t
  rw [mix_colors ha] at hrun
  constructor
  · intro result hresult
    rw [hrun, Result.map_eq_ok_iff] at hresult
    obtain ⟨c, hc, rfl⟩ := hresult
    rw [hc, Result.toOption_ok] at hblend
    obtain ⟨τ, -, hmixed⟩ := Option.bind_eq_some_iff.mp hblend.symm
    exact .inr (.mixed (by simp [hrange]) (by simp [hrange]) ha hb hmixed)
  · rw [hrun, Result.succeeds_map, hstuck, ← hblend]
    cases Color.blend first second (.float t) <;> simp

theorem answers_continuous (hkind : s.kind.interpolates = true) (hbounded : s.Bounded low high)
    (hcolors : ∀ color ∈ s.range, Succeeds (Color.ofJson color)) (hvalue : value.Reads n x) :
    Answers s value (Overflows s.kind s.range low high value) := by
  have hrun : s.value value = s.continuousValue value := by
    unfold Scale.value
    cases hk : s.kind <;> first | rfl | simp [hk, ScaleKind.interpolates] at hkind
  by_cases hshort : s.range.length < 2
  · refine answers_unknown ?_ ?_
    · rw [hrun, continuousValue, hvalue.proper]
      simp [hshort]
    · rintro ⟨first, second, rest, -, -, -, hrange, -⟩
      simp [hrange] at hshort
  obtain ⟨first, second, rest, hrange⟩ : ∃ first second rest, s.range = first :: second :: rest := by
    rcases hrange : s.range with _ | ⟨first, _ | ⟨second, rest⟩⟩
    · simp [hrange] at hshort
    · simp [hrange] at hshort
    · exact ⟨first, second, rest, rfl⟩
  rw [hrange] at hcolors
  obtain ⟨a, ha⟩ := hcolors first (by simp)
  obtain ⟨b, hb⟩ := hcolors second (by simp)
  rw [continuousValue_bounds hbounded hrange hvalue] at hrun
  cases hshare : share? s.kind low high value with
  | none =>
    rw [hshare] at hrun
    exact answers_unknown hrun (by simp [Overflows, hshare])
  | some t =>
    rw [hshare] at hrun
    exact answers_mix hrange ha hb hrun (by simp [Overflows, hrange, hshare, ha, hb])

theorem answers_empty (hkind : s.kind.isNumeric = true) (hdomain : s.domain = [])
    (hfresh : s.keptBreaks = none) (hvalue : value.Reads n x) : Answers s value False := by
  have hcontinuous : s.continuousValue value = pure s.unknown := by
    simp [continuousValue, hvalue.proper, hdomain]
  cases hk : s.kind with
  | linear | log | sqrt =>
    refine answers_unknown ?_ not_false
    rw [Scale.value, hk]
    exact hcontinuous
  | quantile => exact answers_quantile hk hfresh (by simp [hdomain]) hvalue
  | quantize =>
    refine answers_bucket (.inr (.inl hk)) hvalue (fun hbuckets => ?_) (fun _ => not_false)
    simp [hasBuckets, hk, hdomain] at hbuckets
  | custom =>
    refine answers_bucket (.inr (.inr hk)) hvalue (fun _ => ?_) (fun _ => not_false)
    rw [bucket, hk, hdomain]
    exact iff_of_true ⟨0, rfl⟩ not_false
  | ordinal | point | identity => simp [hk, ScaleKind.isNumeric] at hkind

/-- What keeps a scale over two bounds from placing a number. -/
def Stuck (kind : ScaleKind) (colors : List Json) (low high value : Json) : Prop :=
  match kind with
  | .linear | .log | .sqrt => Overflows kind colors low high value
  | .quantize => colors ≠ [] ∧ (low = .null ∨ high = .null)
  | .custom => high = .null ∨ low = .null ∧ Below value high
  | _ => False

theorem answers_bounds (hkind : s.kind.isNumeric = true) (hbounded : s.Bounded low high)
    (hfresh : s.keptBreaks = none)
    (hcolors : ∀ color ∈ s.range, Succeeds (Color.ofJson color)) (hvalue : value.Reads n x) :
    Answers s value (Stuck s.kind s.range low high value) := by
  have hcontinuous := fun hkind => answers_continuous hkind hbounded hcolors hvalue
  cases hk : s.kind with
  | linear | log | sqrt =>
    rw [hk] at hcontinuous
    exact hcontinuous rfl
  | quantile =>
    refine answers_quantile hk hfresh ?_ hvalue
    simp [hbounded.domain, Declared.fitsDouble_of_bound hbounded.low,
      Declared.fitsDouble_of_bound hbounded.high]
  | quantize => exact answers_quantize hk hbounded hvalue
  | custom => exact answers_custom hk hbounded hvalue
  | ordinal | point | identity => simp [hk, ScaleKind.isNumeric] at hkind

end Scale

namespace Domain

theorem ofData_bounds {fields : Json.Fields} (htiled : Entries.has fields "tilestats" = true)
    (hstatistics : Declared.optional (Declared.statisticsOf Declared.extent)
      (Json.fieldOf fields "tilestats") = true) (name : Json) {shape : Shape}
    (hshape : shape ≠ .categories) : ofData (.object fields) name shape =
      .ok (match described? fields name with
        | none => []
        | some column => [Json.fieldOf column.fieldsOrNone "min", Json.fieldOf column.fieldsOrNone "max"]) := by
  simp only [ofData, htiled, if_true,
    attribute?_eq hstatistics (fun _ => Declared.isObject_of_record) name, Result.ok_bind]
  cases hfound : described? fields name with
  | none => rfl
  | some column =>
    have hcolumn := of_mem_attributes hstatistics (List.mem_of_find?_eq_some hfound)
    obtain ⟨inner, rfl, -⟩ := Declared.record_inv hcolumn
    simp [ofStatistics, Json.lookup, hshape]

end Domain

namespace Accessor

open Scale

/-- A scale for the colors of a numeric column of tiles gives the unknown color or one made from its
palette to every number, unless what the statistics say about the column keeps it from placing it. -/
theorem tiledScale_answers {fields : Json.Fields} (htiled : Entries.has fields "tilestats" = true)
    (hstatistics : Declared.optional (Declared.statisticsOf Declared.extent)
      (Json.fieldOf fields "tilestats") = true) (name : Json) {kind : ScaleKind}
    (hkind : kind.isNumeric = true) {colorRange : Json} {colors : List Json}
    (hpalette : Palette colorRange colors) {value : Json} (hvalue : Declared.number value = true) :
    ∃ s, colorScale name (.text kind.name) colorRange (.object fields) = .ok s ∧
      s.unknown = unknownColor ∧ s.range = colors ∧
      s.Answers value (∃ column, Domain.described? fields name = some column ∧
        Stuck kind colors (Json.fieldOf column.fieldsOrNone "min")
          (Json.fieldOf column.fieldsOrNone "max") value) := by
  obtain ⟨n, x, hreads⟩ := Declared.number_inv hvalue
  have hname : ScaleKind.ofJson (.text kind.name) = .ok kind := by cases kind <;> rfl
  have hidentity : kind ≠ .identity := by rintro rfl; simp [ScaleKind.isNumeric] at hkind
  have hordinal : kind ≠ .ordinal := by rintro rfl; simp [ScaleKind.isNumeric] at hkind
  have hshape : Domain.Shape.ofKind kind ≠ .categories := by
    cases kind <;> simp [ScaleKind.isNumeric] at hkind <;> simp [Domain.Shape.ofKind]
  have hdomain := Domain.ofData_bounds htiled hstatistics name hshape
  refine ⟨_, colorScale_palette hpalette hname hidentity hdomain, rfl, rfl, ?_⟩
  have hscale (domain : List Json) : (paletteScale kind domain colors).domain = domain := by
    rw [paletteScale, if_neg hordinal]
    rfl
  cases hfound : Domain.described? fields name with
  | none => simpa using answers_empty hkind (hscale []) rfl hreads
  | some column =>
    have hcolumn := Domain.of_mem_attributes hstatistics (List.mem_of_find?_eq_some hfound)
    obtain ⟨inner, rfl, hbounds⟩ := Declared.record_inv hcolumn
    have hanswers : (paletteScale kind [Json.fieldOf inner "min", Json.fieldOf inner "max"] colors).Answers
        value (Stuck kind colors (Json.fieldOf inner "min") (Json.fieldOf inner "max") value) :=
      answers_bounds hkind ⟨hscale _, hbounds "min" rfl, hbounds "max" rfl⟩ rfl hpalette.valid hreads
    simpa using hanswers

/-- Statistics of tiles that describe one column, with bounds or without. -/
def columnStatistics (bounds : Json.Fields) : Json.Fields :=
  [("tilestats", .object [("layers", .list [.object
    [("attributes", .list [.object (("attribute", .text "n") :: bounds)])]])])]

def blackToWhite : List Json := [.text "#000000", .text "#ffffff"]

theorem palette_blackToWhite : Palette (.object [("colors", .list blackToWhite)]) blackToWhite := by
  refine ⟨.inr rfl, rfl, .inl rfl, ?_⟩
  simpa [blackToWhite] using ⟨⟨⟨0, 0, 0, 255⟩, rfl⟩, ⟨⟨255, 255, 255, 255⟩, rfl⟩⟩

/-- Between bounds that are there a number has one of the colors. -/
theorem tiledScale_answers_between : ∃ s result,
    colorScale (.text "n") (.text "quantize") (.object [("colors", .list blackToWhite)])
      (.object (columnStatistics [("min", .int 0), ("max", .int 10)])) = .ok s ∧
    s.value (.int 5) = .ok result ∧ (result = unknownColor ∨ MadeFrom blackToWhite result) := by
  obtain ⟨s, hscale, hunknown, hrange, hanswers⟩ := tiledScale_answers
    (show Entries.has (columnStatistics [("min", .int 0), ("max", .int 10)]) "tilestats" = true from rfl)
    (by decide +kernel) (.text "n") (show ScaleKind.isNumeric .quantize = true from rfl)
    palette_blackToWhite (show Declared.number (.int 5) = true by decide +kernel)
  obtain ⟨result, hresult⟩ : Succeeds (s.value (.int 5)) := by
    refine hanswers.succeeds_iff.mpr ?_
    rintro ⟨column, hcolumn, -, hbound⟩
    obtain rfl := Option.some.inj hcolumn
    rcases hbound with hlow | hhigh
    · exact Json.noConfusion (show Json.int 0 = .null from hlow)
    · exact Json.noConfusion (show Json.int 10 = .null from hhigh)
  exact ⟨s, result, hscale, hresult, hunknown ▸ hrange ▸ hanswers.made result hresult⟩

/-- Without bounds a quantize scale does not take a number for unknown, but fails. -/
theorem quantize_without_bounds_fails :
    Declared.optional (Declared.statisticsOf Declared.extent)
      (Json.fieldOf (columnStatistics []) "tilestats") = true ∧ Declared.number (.int 5) = true ∧
    Result.failsBy .type ((colorScale (.text "n") (.text "quantize")
      (.object [("colors", .list blackToWhite)]) (.object (columnStatistics []))).bind fun s =>
        s.value (.int 5)) = true := by
  refine ⟨rfl, ?_, ?_⟩ <;> decide +kernel

end Accessor

end MapLayers
