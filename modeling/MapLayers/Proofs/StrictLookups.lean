import MapLayers.Proofs.BucketOrder
import MapLayers.Proofs.StrictScales

/-!
# Lookups of a scale

No strict step of a scale ever fails, whatever comparisons between entries come out as: every index follows
from the window of a bisection and from lengths alone. With comparisons as they are a strict call comes out as
the call of the scale.
-/

namespace MapLayers.Scale

open Result

open Binary64 (le_rounded lt_of_value?_eq_some nearestValue?_natCast nearestValue?_of_le representable_natCast
  representable_one representable_zero rounded rounded_le value? value?_div value?_mul value?_ofNat)

theorem stops?_length {kind : ScaleKind} {values : List Json} {stops : List Number}
    (h : stops? kind values = .ok (some stops)) : stops.length = values.length := by
  induction values generalizing stops with
  | nil =>
    obtain rfl : [] = stops := by simpa [stops?] using h
    rfl
  | cons value rest ih =>
    obtain ⟨x, others, rfl, hothers⟩ := stops?_cons h
    rw [List.length_cons, List.length_cons, ih hothers]

variable {c : Comparisons} {s : Scale}

/-- A piece is found among those there are. -/
theorem strictPiece_inv {stops : List Number} {pieces : Nat} {x : Number} {piece : Int}
    (hpos : 0 < pieces) (hpieces : pieces ≤ stops.length) (h : strictPiece c stops pieces x = .ok piece) :
    ∃ i : Nat, piece = i ∧ i < pieces := by
  unfold strictPiece at h
  split at h
  · next hmany =>
    rw [Strict.bisect_eq _ hpieces] at h
    obtain ⟨position, hposition, h⟩ := bind_eq_ok_iff.mp h
    obtain ⟨hlow, hhigh⟩ := bisect_bounds (by omega) hposition
    rw [pure_eq_ok_iff] at h
    exact ⟨position - 1, by omega, by omega⟩
  · exact ⟨0, (Except.ok.inj h).symm, hpos⟩

theorem strictPiece_computes {stops : List Number} {pieces : Nat} (hpieces : pieces ≤ stops.length)
    (x : Number) : Computes (strictPiece c stops pieces x) := by
  unfold strictPiece
  rw [Strict.bisect_eq _ hpieces]
  split
  · simp [bisect_failsOnly]
  · simp

theorem strictPiece_exact {stops : List Number} {pieces : Nat} (hpieces : pieces ≤ stops.length)
    (x : Number) :
    strictPiece .exact stops pieces x = (Interpolation.pieceOf stops pieces x).map fun i => (i : Int) := by
  unfold strictPiece Interpolation.pieceOf
  split
  · next hmany =>
    have htest : (fun stop => Comparisons.exact.isAbove x (.ofNumber stop)) =
        fun stop => .ok (Arithmetic.less x stop) := by
      funext stop
      exact Comparisons.exact_isAbove_ofNumber x stop
    rw [Strict.bisect_eq _ hpieces, htest, upperBoundBetween]
    cases hposition : bisect (fun stop => .ok (Arithmetic.less x stop)) stops (pieces - 1) 1 pieces with
    | error fault => rfl
    | ok position =>
      obtain ⟨hlow, hhigh⟩ := bisect_bounds (by omega) hposition
      have hpiece : min (max ((position : Int) - 1) 0) ((pieces : Int) - 1) =
          ((min (position - 1) (pieces - 1) : Nat) : Int) := by omega
      exact congrArg Except.ok hpiece
  · rfl

/-- The ends of a piece are there, in the stops as well as in the range. -/
theorem strictMix_eq {stops : List Number} {x : Number} {i : Nat}
    (hi : i < min stops.length s.range.length - 1)
    (h : strictPiece c stops (min stops.length s.range.length - 1) x = .ok i) :
    ∃ start stop first last, stops[i]? = some start ∧ stops[i + 1]? = some stop ∧
      s.range[i]? = some first ∧ s.range[i + 1]? = some last ∧
      s.strictMix c stops x = Interpolation.proportion start stop x >>= mix first last := by
  have hstart : stops[i]? = some stops[i] := List.getElem?_eq_getElem (by omega)
  have hstop : stops[i + 1]? = some stops[i + 1] := List.getElem?_eq_getElem (by omega)
  have hfirst : s.range[i]? = some s.range[i] := List.getElem?_eq_getElem (by omega)
  have hlast : s.range[i + 1]? = some s.range[i + 1] := List.getElem?_eq_getElem (by omega)
  refine ⟨_, _, _, _, hstart, hstop, hfirst, hlast, ?_⟩
  have hnext : (i : Int) + 1 = ((i + 1 : Nat) : Int) := by omega
  simp only [strictMix, h, hnext, Strict.entry_eq hstart, Strict.entry_eq hstop, Strict.entry_eq hfirst,
    Strict.entry_eq hlast, Result.ok_bind]

theorem strictMix_computes {stops : List Number} (hstops : 2 ≤ stops.length) (hrange : 2 ≤ s.range.length)
    (x : Number) : Computes (s.strictMix c stops x) := by
  cases hpiece : strictPiece c stops (min stops.length s.range.length - 1) x with
  | error fault =>
    have hfault := strictPiece_computes (by omega) x fault hpiece
    simp [strictMix, hpiece, bind, Except.bind, hfault]
  | ok piece =>
    obtain ⟨i, rfl, hi⟩ := strictPiece_inv (by omega) (by omega) hpiece
    obtain ⟨start, stop, first, last, -, -, -, -, heq⟩ := strictMix_eq hi hpiece
    simp [heq]

theorem strictMix_exact {stops : List Number} (hstops : 2 ≤ stops.length) (hrange : 2 ≤ s.range.length)
    (x : Number) : s.strictMix .exact stops x =
      (Interpolation.interpolate? mix stops s.range x).map fun found => found.getD s.unknown := by
  have hpieces : min stops.length s.range.length - 1 ≤ stops.length := by omega
  have hexact := strictPiece_exact hpieces x
  cases hpiece : Interpolation.pieceOf stops (min stops.length s.range.length - 1) x with
  | error fault =>
    rw [hpiece] at hexact
    have hstrict : strictPiece .exact stops (min stops.length s.range.length - 1) x = .error fault := hexact
    rw [strictMix, hstrict, Interpolation.interpolate?, hpiece]
    rfl
  | ok i =>
    rw [hpiece] at hexact
    have hstrict : strictPiece .exact stops (min stops.length s.range.length - 1) x = .ok (i : Int) := hexact
    obtain ⟨j, hij, hj⟩ := strictPiece_inv (by omega) (by omega) hstrict
    obtain rfl : i = j := by omega
    obtain ⟨start, stop, first, last, hstart, hstop, hfirst, hlast, heq⟩ := strictMix_eq hj hstrict
    simp only [heq, Interpolation.interpolate?, hpiece, hstart, hstop, hfirst, hlast, Result.ok_bind]
    cases Interpolation.proportion start stop x with
    | error fault => rfl
    | ok t =>
      simp only [Result.ok_bind]
      cases mix first last t <;> rfl

theorem strictContinuousValue_computes (input : Json) : Computes (s.strictContinuousValue c input) := by
  simp only [strictContinuousValue, failsOnly_bind, Json.properNumber?_computes, true_and]
  intro number _
  split
  · simp
  · split
    · simp
    · next hlengths =>
      simp only [failsOnly_bind, Number.toFloat_computes, true_and]
      intro x _
      split
      · simp
      · simp only [failsOnly_bind, stops?_computes, true_and]
        intro stops hstops
        split
        · simp
        · next found =>
          have hlength := stops?_length hstops
          simp only [Bool.or_eq_true, decide_eq_true_eq, not_or, not_lt] at hlengths
          exact strictMix_computes (by omega) hlengths.2 _

theorem strictContinuousValue_exact (input : Json) :
    s.strictContinuousValue .exact input = s.continuousValue input := by
  unfold strictContinuousValue continuousValue
  refine bind_congr fun number => ?_
  cases number with
  | none => rfl
  | some n =>
    dsimp only
    split
    · rfl
    · next hlengths =>
      simp only [Bool.or_eq_true, decide_eq_true_eq, not_or, not_lt] at hlengths
      refine bind_congr fun x => ?_
      cases transform? s.kind x with
      | none => rfl
      | some position =>
        dsimp only
        cases hstops : stops? s.kind s.domain with
        | error fault => rfl
        | ok found =>
          cases found with
          | none => rfl
          | some stops =>
            have hlength := stops?_length hstops
            simp only [Result.ok_bind]
            rw [strictMix_exact (by omega) hlengths.2]
            cases Interpolation.interpolate? mix stops s.range (.float position) <;> rfl

/-- Each share `i / n` of the way to the last place of a list is rounded to a number between the first place
and the last one. -/
def SharePlaces (places n : Nat) : Prop :=
  ∀ i, 0 < i → i < n → ∃ q,
    value? (Float.ofNat (places - 1) * (Float.ofNat i / Float.ofNat n)) = some q ∧
      0 ≤ q.floor ∧ q.floor ≤ (places : Int) - 1

/-- The shares that the breaks of a quantile scale are taken at fall on places of its numbers. -/
def SharesPlaced (s : Scale) : Prop :=
  s.kind = .quantile → ∀ numbers, properFloats s.domain = .ok numbers → numbers ≠ [] →
    SharePlaces numbers.length s.range.length

/-- A share of a count is rounded twice, to a part of one and to a part of the count. -/
theorem value?_share {last i n : Nat} (hlast : last ≤ 2 ^ 53) (hn : n ≤ 2 ^ 53) (hin : i < n) :
    ∃ q, value? (Float.ofNat last * (Float.ofNat i / Float.ofNat n)) = some q ∧ 0 ≤ q ∧ q ≤ last := by
  have hcount (k : Nat) (hk : k ≤ 2 ^ 53) : value? (Float.ofNat k) = some (k : Rat) := by
    rw [value?_ofNat, nearestValue?_natCast hk]
  have hnpos : (0 : Rat) < n := by exact_mod_cast Nat.zero_lt_of_lt hin
  have hone := lt_of_value?_eq_some (hcount 1 (by omega))
  rw [Nat.cast_one] at hone
  have hp₀ : 0 ≤ rounded ((i : Rat) / n) :=
    le_rounded representable_zero (div_nonneg (Nat.cast_nonneg i) hnpos.le)
  have hp₁ : rounded ((i : Rat) / n) ≤ 1 :=
    rounded_le representable_one ((div_le_one hnpos).mpr (by exact_mod_cast hin.le))
  have hpart : value? (Float.ofNat i / Float.ofNat n) = some (rounded ((i : Rat) / n)) := by
    rw [value?_div (hcount n hn) hnpos.ne', hcount i (by omega), Option.bind_some,
      nearestValue?_of_le hp₀ hp₁ hone]
  have hq₀ : 0 ≤ rounded (last * rounded ((i : Rat) / n)) :=
    le_rounded representable_zero (mul_nonneg (Nat.cast_nonneg last) hp₀)
  have hq₁ : rounded (last * rounded ((i : Rat) / n)) ≤ last :=
    rounded_le (representable_natCast hlast) (mul_le_of_le_one_right (Nat.cast_nonneg last) hp₁)
  refine ⟨rounded (last * rounded ((i : Rat) / n)), ?_, hq₀, hq₁⟩
  rw [value?_mul, hcount last hlast, hpart, Option.bind_some, Option.bind_some,
    nearestValue?_of_le hq₀ hq₁ (lt_of_value?_eq_some (hcount last hlast))]

/-- Lists whose places are counted exactly have all their shares placed. -/
theorem sharePlaces_of_le {places n : Nat} (hpos : 0 < places) (hplaces : places ≤ 2 ^ 53)
    (hn : n ≤ 2 ^ 53) : SharePlaces places n := by
  intro i _ hin
  have hlast : places - 1 ≤ 2 ^ 53 := by omega
  obtain ⟨q, hvalue, hlow, hhigh⟩ := value?_share hlast hn hin
  refine ⟨q, hvalue, Rat.le_floor_iff.mpr (by exact_mod_cast hlow), ?_⟩
  have hfloor : q.floor ≤ ((places - 1 : Nat) : Int) :=
    (Rat.floor_monotone hhigh).trans (Rat.floor_intCast ((places - 1 : Nat) : Int)).le
  omega

theorem sortedBy_length (less : Number → Number → Bool) (numbers : List Float) :
    (sortedBy less numbers).length = numbers.length := by
  simp [sortedBy]

theorem strictQuantile_eq {values : List Float} {i n : Nat} (hshares : SharePlaces values.length n)
    (hi : 0 < i) (hin : i < n) :
    strictQuantile values i n = .ok (quantileAt values (Float.ofNat i / Float.ofNat n)) := by
  obtain ⟨q, hvalue, hlow, hhigh⟩ := hshares i hi hin
  obtain ⟨low, hq⟩ := Int.eq_ofNat_of_zero_le hlow
  have hlower : values[low]? = some values[low] := List.getElem?_eq_getElem (by omega)
  have hupper : values[min (low + 1) (values.length - 1)]? = some values[min (low + 1) (values.length - 1)] :=
    List.getElem?_eq_getElem (by omega)
  have hindex : min ((low : Int) + 1) ((values.length : Int) - 1) =
      ((min (low + 1) (values.length - 1) : Nat) : Int) := by omega
  simp only [strictQuantile, Strict.quotient_ofNat _ (hi.trans hin), Result.ok_bind, Number.toInt, hvalue, hq,
    hindex, Strict.entry_eq hlower, Strict.entry_eq hupper]
  simp only [quantileAt, hvalue, Option.getD_some, hq, Int.toNat_natCast, hlower, hupper]
  rfl

/-- The breaks among sorted numbers. -/
def breaksAmong (sorted : List Float) (buckets : Nat) : List Number :=
  if sorted.isEmpty || buckets = 0 then []
  else (List.range (buckets - 1)).map fun i =>
    .float (quantileAt sorted (Float.ofNat (i + 1) / Float.ofNat buckets))

theorem quantileBreaks_eq (domain : List Json) (buckets : Nat) : quantileBreaks domain buckets =
    (properFloats domain).map fun numbers => breaksAmong (sortedBy Number.less numbers) buckets := by
  unfold quantileBreaks
  cases properFloats domain with
  | error fault => rfl
  | ok numbers =>
    have hsorted : (Statistics.ascending (numbers.map .float)).map floatOf =
        sortedBy Number.less numbers := rfl
    simp only [Result.ok_bind, Except.map, hsorted, breaksAmong]
    cases (sortedBy Number.less numbers).isEmpty || decide (buckets = 0) <;> rfl

theorem strictQuantileBreaks_eq {domain : List Json} {buckets : Nat}
    (h : ∀ numbers, properFloats domain = .ok numbers → numbers ≠ [] →
      SharePlaces numbers.length buckets) :
    strictQuantileBreaks c domain buckets =
      (properFloats domain).map fun numbers => breaksAmong (sortedBy c.less numbers) buckets := by
  unfold strictQuantileBreaks
  cases hnumbers : properFloats domain with
  | error fault => rfl
  | ok numbers =>
    simp only [Result.ok_bind, Except.map, breaksAmong]
    split
    · rfl
    · next hsome =>
      have hne : numbers ≠ [] := by
        rintro rfl
        simp [sortedBy] at hsome
      have hshares := h numbers hnumbers hne
      rw [← sortedBy_length c.less numbers] at hshares
      refine mapM_eq_ok_map fun i hi => ?_
      have hlt := List.mem_range.mp hi
      rw [strictQuantile_eq hshares (Nat.succ_pos i) (by omega)]

theorem strictQuantizeBreaks_eq {domain : List Json} (h : 2 ≤ domain.length) (buckets : Nat) :
    strictQuantizeBreaks domain buckets = quantizeBreaks domain buckets := by
  have hfirst : domain[0]? = some domain[0] := List.getElem?_eq_getElem (by omega)
  have hlast : domain[domain.length - 1]? = some domain[domain.length - 1] :=
    List.getElem?_eq_getElem (by omega)
  have hindex : (domain.length : Int) - 1 = ((domain.length - 1 : Nat) : Int) := by omega
  have hzero : (0 : Int) = ((0 : Nat) : Int) := rfl
  rw [strictQuantizeBreaks, quantizeBreaks, List.head?_eq_getElem?, List.getLast?_eq_getElem?, hindex, hzero,
    Strict.entry_eq hfirst, Strict.entry_eq hlast, hfirst, hlast]
  simp only [Result.ok_bind, Option.getD_some]
  refine bind_congr fun low => bind_congr fun high => ?_
  refine mapM_eq_ok_map fun i hi => ?_
  have hlt := List.mem_range.mp hi
  rw [Strict.quotient_ofNat _ (by omega)]
  rfl

/-- No more breaks are kept than there are between the entries of the range. -/
def KeepsFew (s : Scale) : Prop := ∀ kept, s.keptBreaks = some kept → kept.length ≤ s.range.length - 1

theorem keepsFew_of_none (h : s.keptBreaks = none) : s.KeepsFew := by
  intro kept hkept
  simp [h] at hkept

theorem Coherent.keepsFew (hs : s.Coherent) : s.KeepsFew :=
  fun kept hkept => quantileBreaks_length (hs kept hkept)

theorem strictQuantileBreaks_length {domain : List Json} {buckets : Nat} {breaks : List Number}
    (h : strictQuantileBreaks c domain buckets = .ok breaks) : breaks.length ≤ buckets - 1 := by
  obtain ⟨numbers, -, h⟩ := bind_eq_ok_iff.mp h
  dsimp only at h
  split at h
  · obtain rfl : [] = breaks := Except.ok.inj h
    exact Nat.zero_le _
  · rw [length_of_mapM h, List.length_range]

theorem KeepsFew.strictBreaks_length (hs : s.KeepsFew) {breaks : List Number}
    (h : s.strictBreaks c = .ok breaks) : breaks.length ≤ s.range.length - 1 := by
  unfold strictBreaks at h
  split at h
  · next kept hkept =>
    obtain rfl := Except.ok.inj h
    exact hs kept hkept
  · exact strictQuantileBreaks_length h

theorem KeepsFew.strictStep (hs : s.KeepsFew) (c : Comparisons) (request : Request) :
    (s.strictStep c request).KeepsFew := by
  cases request with
  | setDomain values =>
    refine keepsFew_of_none ?_
    simp only [Scale.strictStep, step]
    cases values.elements <;> rfl
  | setRange values =>
    refine keepsFew_of_none ?_
    simp only [Scale.strictStep, step]
    cases rangeEntries values <;> rfl
  | setUnknown value => exact hs
  | call input =>
    simp only [Scale.strictStep, strictAfterCall]
    split
    · split
      · exact hs
      · intro kept hkept
        exact hs.strictBreaks_length (eq_ok_of_toOption hkept)
    · exact hs

theorem KeepsFew.strictAfter (hs : s.KeepsFew) (run : List (Comparisons × Request)) :
    (s.strictAfter run).KeepsFew := by
  induction run generalizing s with
  | nil => exact hs
  | cons request rest ih => exact ih (hs.strictStep request.1 request.2)

theorem strictBreaks_exact (hkind : s.kind = .quantile) (hshares : s.SharesPlaced) :
    s.strictBreaks .exact = s.breaks := by
  unfold strictBreaks breaks
  cases s.keptBreaks with
  | some kept => rfl
  | none =>
    dsimp only
    rw [strictQuantileBreaks_eq (hshares hkind), quantileBreaks_eq]
    rfl

theorem hasBuckets_range (hbuckets : s.hasBuckets = true) (hkind : s.kind ≠ .custom) :
    0 < s.range.length := by
  unfold hasBuckets at hbuckets
  cases hrange : s.range with
  | nil => cases hk : s.kind <;> simp_all
  | cons first rest => exact Nat.succ_pos _

theorem hasBuckets_domain (hbuckets : s.hasBuckets = true) (hcustom : s.kind ≠ .custom)
    (hquantile : s.kind ≠ .quantile) : 2 ≤ s.domain.length := by
  unfold hasBuckets at hbuckets
  cases hk : s.kind <;> simp_all

/-- A number is put at a place that the range has. -/
theorem strictBucket_lt (hs : s.KeepsFew) (hbuckets : s.hasBuckets = true)
    (hkind : s.kind ≠ .custom) {n : Number} {i : Nat} (h : s.strictBucket c n = .ok i) :
    i < s.range.length := by
  have hpos := hasBuckets_range hbuckets hkind
  unfold strictBucket at h
  simp only [Strict.upperBound_eq] at h
  split at h
  · next hcustom => exact absurd hcustom hkind
  · next hquantile =>
    simp only [bind_eq_ok_iff] at h
    obtain ⟨breaks, hbreaks, x, -, hi⟩ := h
    have := upperBound_le hi
    have := hs.strictBreaks_length hbreaks
    omega
  · next hother hothers =>
    rw [strictQuantizeBreaks_eq (hasBuckets_domain hbuckets hother hothers)] at h
    simp only [bind_eq_ok_iff] at h
    obtain ⟨breaks, hbreaks, x, -, hi⟩ := h
    have := upperBound_le hi
    have := quantizeBreaks_length hbreaks
    omega

theorem strictBucket_exact (hshares : s.SharesPlaced) (hbuckets : s.hasBuckets = true) (n : Number) :
    s.strictBucket .exact n = s.bucket n := by
  have htest (m : Number) : (fun stop => Comparisons.exact.isAbove m (.ofNumber stop)) = isAbove m := by
    funext stop
    exact Comparisons.exact_isAbove_ofNumber m stop
  have hentry : Comparisons.exact.isAbove n = isAboveJson n := funext (Comparisons.exact_isAbove n)
  unfold strictBucket bucket
  simp only [Strict.upperBound_eq, htest, hentry]
  cases hkind : s.kind
  case custom => rfl
  case quantile => simp only [strictBreaks_exact hkind hshares]
  all_goals
    have hdomain : 2 ≤ s.domain.length := hasBuckets_domain hbuckets (by simp [hkind]) (by simp [hkind])
    simp only [strictQuantizeBreaks_eq hdomain]

@[simp] theorem properFloats_staysInside (values : List Json) : StaysInside (properFloats values) := by
  induction values with
  | nil => simp [properFloats]
  | cons value rest ih =>
    simp only [properFloats, failsOnly_bind, Json.properNumber?_staysInside, true_and]
    intro number _
    split <;> simp [ih]

theorem strictBreaks_staysInside (hkind : s.kind = .quantile) (hshares : s.SharesPlaced) :
    StaysInside (s.strictBreaks c) := by
  unfold strictBreaks
  split
  · simp
  · simp [strictQuantileBreaks_eq (hshares hkind)]

theorem strictBucket_staysInside (hshares : s.SharesPlaced) (hbuckets : s.hasBuckets = true) (n : Number) :
    StaysInside (s.strictBucket c n) := by
  unfold strictBucket
  simp only [Strict.upperBound_eq]
  split
  · simp [upperBound_failsOnly]
  · next hquantile => simp [strictBreaks_staysInside hquantile hshares, upperBound_failsOnly]
  · next hother hothers =>
    have hdomain := hasBuckets_domain hbuckets hother hothers
    simp [strictQuantizeBreaks_eq hdomain, quantizeBreaks, upperBound_failsOnly]

/-- What a place of the range holds, or the unknown value where the range has no such place. -/
theorem strictPlace_eq (hs : s.KeepsFew) (hbuckets : s.hasBuckets = true)
    {n : Number} {i : Nat} (hplace : s.strictBucket c n = .ok i) :
    (if s.kind = .custom ∧ s.range.length ≤ i then pure s.unknown else Strict.entry s.range i) =
      .ok ((s.range[i]?).getD s.unknown) := by
  split
  · next hpast =>
    rw [List.getElem?_eq_none hpast.2]
    rfl
  · next hother =>
    have hlt : i < s.range.length := by
      by_cases hkind : s.kind = .custom
      · simpa [hkind] using hother
      · exact strictBucket_lt hs hbuckets hkind hplace
    have hentry := List.getElem?_eq_getElem hlt
    rw [Strict.entry_eq hentry, hentry, Option.getD_some]

theorem strictBucketValue_eq (hs : s.KeepsFew) (input : Json) :
    s.strictBucketValue c input = do
      match ← input.properNumber? with
      | none => return s.unknown
      | some n =>
        if s.hasBuckets then
          let i ← s.strictBucket c n
          return (s.range[i]?).getD s.unknown
        else return s.unknown := by
  unfold strictBucketValue
  refine bind_congr fun number => ?_
  cases number with
  | none => rfl
  | some n =>
    dsimp only
    split
    · next hbuckets =>
      cases hplace : s.strictBucket c n with
      | error fault => rfl
      | ok i => exact strictPlace_eq hs hbuckets hplace
    · rfl

theorem strictBucketValue_staysInside (hs : s.KeepsFew) (hshares : s.SharesPlaced) (input : Json) :
    StaysInside (s.strictBucketValue c input) := by
  rw [strictBucketValue_eq hs]
  simp only [failsOnly_bind, Json.properNumber?_staysInside, true_and]
  intro number _
  split
  · simp
  · split
    · next hbuckets => simp [strictBucket_staysInside hshares hbuckets]
    · simp

theorem strictBucketValue_exact (hs : s.KeepsFew) (hshares : s.SharesPlaced) (input : Json) :
    s.strictBucketValue .exact input = s.bucketValue input := by
  rw [strictBucketValue_eq hs, bucketValue]
  refine bind_congr fun number => ?_
  cases number with
  | none => rfl
  | some n =>
    dsimp only
    split
    · next hbuckets => rw [strictBucket_exact hshares hbuckets]
    · rfl

theorem strictOrdinalValue_eq (input : Json) : s.strictOrdinalValue c input =
    .ok (match s.domain.findIdx? fun entry => c.same entry input with
      | some i => (s.range[i % s.range.length]?).getD s.unknown
      | none => s.unknown) := by
  unfold strictOrdinalValue
  cases hrange : s.range with
  | nil => cases s.domain.findIdx? fun entry => c.same entry input <;> rfl
  | cons first rest =>
    cases s.domain.findIdx? fun entry => c.same entry input with
    | none => rfl
    | some i =>
      have hlt : i % (first :: rest).length < (first :: rest).length := Nat.mod_lt i (Nat.succ_pos _)
      have hentry := List.getElem?_eq_getElem hlt
      have hremainder : Strict.remainder i (first :: rest).length = .ok (i % (first :: rest).length) := rfl
      simp only [List.isEmpty_cons, Bool.false_eq_true, if_false, hremainder, Result.ok_bind,
        Strict.entry_eq hentry, hentry, Option.getD_some]

theorem strictPointValue_eq (input : Json) : s.strictPointValue c input =
    match s.domain.findIdx? fun entry => c.same entry input, s.range with
    | some i, first :: second :: _ => do
      let start ← first.toFloat
      let stop ← second.toFloat
      let gaps := Float.ofNat (s.domain.length - 1)
      let step := (stop - start) / Float.ofNat (max 1 (s.domain.length - 1))
      let offset := (stop - start - step * gaps) * 0.5
      return .float (start + offset + step * Float.ofNat i)
    | _, _ => return s.unknown := by
  unfold strictPointValue
  cases s.domain.findIdx? fun entry => c.same entry input with
  | none => rfl
  | some i =>
    cases hrange : s.range with
    | nil => rfl
    | cons first rest =>
      cases rest with
      | nil => rfl
      | cons second rest =>
        have hlong : ¬(first :: second :: rest).length < 2 := by simp
        have hgaps : 0 < max 1 (s.domain.length - 1) := by omega
        have hfirst : Strict.entry (first :: second :: rest) 0 = .ok first := rfl
        have hsecond : Strict.entry (first :: second :: rest) 1 = .ok second := rfl
        simp only [hlong, if_false, hfirst, hsecond, Strict.quotient_ofNat _ hgaps, Result.ok_bind]

theorem strictOrdinalValue_exact (input : Json) :
    s.strictOrdinalValue .exact input = .ok (s.ordinalValue input) := by
  rw [strictOrdinalValue_eq]
  rfl

theorem strictPointValue_staysInside (input : Json) : StaysInside (s.strictPointValue c input) := by
  rw [strictPointValue_eq]
  split <;> simp

theorem strictPointValue_exact (input : Json) : s.strictPointValue .exact input = s.pointValue input := by
  rw [strictPointValue_eq]
  rfl

theorem properFloats_length {values : List Json} {numbers : List Float}
    (h : properFloats values = .ok numbers) : numbers.length ≤ values.length := by
  induction values generalizing numbers with
  | nil =>
    obtain rfl : [] = numbers := Except.ok.inj h
    exact le_rfl
  | cons value rest ih =>
    obtain ⟨number, -, h⟩ := bind_eq_ok_iff.mp h
    cases number with
    | none => exact (ih h).trans (Nat.le_succ _)
    | some n =>
      simp only [bind_eq_ok_iff, pure_eq_ok_iff] at h
      obtain ⟨x, -, others, hothers, rfl⟩ := h
      exact Nat.succ_le_succ (ih hothers)

theorem sharesPlaced_of_le (hdomain : s.domain.length ≤ 2 ^ 53) (hrange : s.range.length ≤ 2 ^ 53) :
    s.SharesPlaced := by
  intro _ numbers hnumbers hne
  have hlength := properFloats_length hnumbers
  exact sharePlaces_of_le (List.length_pos_iff.mpr hne) (by omega) hrange

/-- How a strict call can fail: by no index outside its list, and by no division by zero either unless the
scale interpolates. -/
structure LooksInside (c : Comparisons) (s : Scale) (input : Json) : Prop where
  index : FailsOnly (fun fault => fault.kind ≠ .index) (s.strictValue c input)
  division : s.kind.interpolates = false →
    FailsOnly (fun fault => fault.kind ≠ .division) (s.strictValue c input)

theorem LooksInside.of_staysInside {input : Json} (h : StaysInside (s.strictValue c input)) :
    LooksInside c s input := by
  constructor
  · exact h.imp fun fault hfault => Fault.kind_ne_index hfault
  · exact fun _ => h.imp fun fault hfault => Fault.kind_ne_division hfault

theorem looksInside (hs : s.KeepsFew) (hshares : s.SharesPlaced) (c : Comparisons) (input : Json) :
    LooksInside c s input := by
  cases hkind : s.kind
  case linear | log | sqrt =>
    have hcomputes : Computes (s.strictValue c input) := by
      simp only [strictValue, hkind]
      exact strictContinuousValue_computes input
    refine ⟨hcomputes.imp fun fault hfault => Fault.kind_ne_index_of_isOfValues hfault, fun hother => ?_⟩
    simp [hkind, ScaleKind.interpolates] at hother
  all_goals
    refine .of_staysInside ?_
    simp only [strictValue, hkind]
  case ordinal =>
    rw [strictOrdinalValue_eq]
    exact failsOnly_ok _
  case point => exact strictPointValue_staysInside input
  case identity => exact failsOnly_ok _
  case quantile | quantize | custom => exact strictBucketValue_staysInside hs hshares input

theorem strictValue_exact (hs : s.KeepsFew) (hshares : s.SharesPlaced) (input : Json) :
    s.strictValue .exact input = s.value input := by
  unfold strictValue value
  cases s.kind
  case linear | log | sqrt => exact strictContinuousValue_exact input
  case quantile | quantize | custom => exact strictBucketValue_exact hs hshares input
  case ordinal => exact strictOrdinalValue_exact input
  case point => exact strictPointValue_exact input
  case identity => rfl

/-- Whatever has been requested of a scale and however comparisons come out, in earlier calls and in this one, a
call misses no entry of a list, and divides by no zero unless it interpolates. With comparisons as they are it
is the call of the scale. That shares fall on places is asked of quantile scales only, and holds as far as
places are counted exactly. -/
theorem lookups_inside :
    (∀ kind run, ((new kind).strictAfter run).SharesPlaced →
      ∀ c input, LooksInside c ((new kind).strictAfter run) input) ∧
    (∀ kind requests, ((new kind).after requests).SharesPlaced → ∀ input,
      (∀ c, LooksInside c ((new kind).after requests) input) ∧
      ((new kind).after requests).strictValue .exact input = ((new kind).after requests).value input) ∧
    ∀ s : Scale, s.domain.length ≤ 2 ^ 53 → s.range.length ≤ 2 ^ 53 → s.SharesPlaced := by
  refine ⟨?_, ?_, ?_⟩
  · intro kind run hshares c input
    have hfew : (new kind).KeepsFew := keepsFew_of_none rfl
    exact looksInside (hfew.strictAfter run) hshares c input
  · intro kind requests hshares input
    obtain ⟨hcoherent, -⟩ := (coherent_of_none (s := new kind) rfl).after requests
    have hfew := hcoherent.keepsFew
    exact ⟨fun c => looksInside hfew hshares c input, strictValue_exact hfew hshares input⟩
  · intro s hdomain hrange
    exact sharesPlaced_of_le hdomain hrange

/-- Numbers in no order, with other values among them, in three parts. -/
def scatteredThirds : List Request :=
  [.setDomain (.list [.int 9, .text "x", .int 0, .null, .int 4, .int 2]),
    .setRange (.list [.text "a", .text "b", .text "c"]), .call (.int 3)]

/-- Comparisons by which nothing is above a number, so that every bisection ends behind its window. -/
def nothingAbove : Comparisons := ⟨fun _ _ => some false, fun _ _ => false, fun _ _ => false⟩

theorem lookups_inside_scattered :
    LooksInside .exact ((new .quantile).strictAfter (scatteredThirds.map (nothingAbove, ·))) (.int 3) ∧
    LooksInside nothingAbove ((new .quantile).after scatteredThirds) (.int 3) ∧
    ((new .quantile).after scatteredThirds).strictValue .exact (.int 3) =
      ((new .quantile).after scatteredThirds).value (.int 3) := by
  have hrun : ((new .quantile).strictAfter (scatteredThirds.map (nothingAbove, ·))).SharesPlaced :=
    lookups_inside.2.2 _ (by decide +kernel) (by decide +kernel)
  have hrequests : ((new .quantile).after scatteredThirds).SharesPlaced :=
    lookups_inside.2.2 _ (by decide +kernel) (by decide +kernel)
  obtain ⟨hinside, hsame⟩ := lookups_inside.2.1 .quantile scatteredThirds hrequests (.int 3)
  exact ⟨lookups_inside.1 .quantile _ hrun .exact (.int 3), hinside nothingAbove, hsame⟩

end MapLayers.Scale
