import MapLayers.Proofs.Bisection
import MapLayers.Proofs.ScaleRuns
import MapLayers.Proofs.SizeBounds
import MapLayers.Proofs.Sorting

/-!
# Buckets keep the order of numbers

A bucket scale finds the place of a number by bisection among its breaks, which need not be in order: the
breaks of a reversed domain descend, and those of a color map come as they were authored. The place of a
number is still never behind that of a larger one, since two bisections part only at a break between the
numbers. Among whole breaks in order the place counts the breaks that are not above the number.
-/

namespace MapLayers

namespace Extended

/-- The place of a finite number once it is rounded. -/
def rounded : Extended → Extended
  | finite q => finite (Binary64.rounded q)
  | other => other

theorem less_of_not_less {p q r : Extended} (hpq : q.less p = false) (hqr : q.less r = true) :
    p.less r = true := by
  cases p <;> cases q <;> cases r <;> simp_all [less]
  linarith

theorem rounded_not_less {p q : Extended} (h : q.less p = false) : q.rounded.less p.rounded = false := by
  cases p <;> cases q <;> simp_all [less, rounded]
  exact Binary64.rounded_mono h

end Extended

namespace Number

variable {a b c : Number} {x y : Float}

theorem atMost_iff : a.atMost b = true ↔
    ∃ p q, a.position? = some p ∧ b.position? = some q ∧ q.less p = false := by
  unfold atMost
  cases a.position? <;> cases b.position? <;> simp

/-- What is above the larger of two numbers is above the smaller one. NaN is above nothing. -/
theorem less_of_atMost (hab : a.atMost b = true) (hbc : b.less c = true) : a.less c = true := by
  obtain ⟨p, q, hp, hq, hpq⟩ := atMost_iff.mp hab
  unfold less at hbc ⊢
  rw [hq] at hbc
  rw [hp]
  cases hr : c.position? with
  | none => simp [hr] at hbc
  | some r =>
    rw [hr] at hbc
    exact Extended.less_of_not_less hpq hbc

theorem toFloat_position (hx : a.toFloat = .ok x) :
    (float x).position? = a.position?.map Extended.rounded := by
  cases a with
  | int n => exact position?_float.mpr (toFloat_value hx rfl)
  | float y =>
    obtain rfl : y = x := Except.ok.inj hx
    cases hplace : (float y).position? with
    | none => rfl
    | some place =>
      cases place with
      | finite q =>
        have hvalue := position?_float.mp hplace
        simp [Extended.rounded, Binary64.rounded_eq_self (Binary64.of_value?_eq_some hvalue).1]
      | _ => rfl

theorem toFloat_atMost (hab : a.atMost b = true) (hx : a.toFloat = .ok x) (hy : b.toFloat = .ok y) :
    (float x).atMost (float y) = true := by
  obtain ⟨p, q, hp, hq, hpq⟩ := atMost_iff.mp hab
  refine atMost_iff.mpr ⟨p.rounded, q.rounded, ?_, ?_, Extended.rounded_not_less hpq⟩
  · rw [toFloat_position hx, hp, Option.map_some]
  · rw [toFloat_position hy, hq, Option.map_some]

theorem isNaN_toFloat (ha : a.position?.isSome = true) (hx : a.toFloat = .ok x) :
    Binary64.isNaN x = false := by
  refine Bool.eq_false_iff.mpr fun hnan => ?_
  have hplace : (float x).position? = none := by
    simp only [position?, Binary64.value?_of_isNaN hnan, hnan, if_true]
  rw [toFloat_position hx, Option.map_eq_none_iff] at hplace
  simp [hplace] at ha

end Number

theorem Json.properNumber?_eq {a : Number} (ha : a.position?.isSome = true) :
    (ofNumber a).properNumber? = a.toFloat.map fun _ => some a := by
  simp only [properNumber?, number?_ofNumber]
  cases hx : a.toFloat with
  | error fault => rfl
  | ok x =>
    simp only [Result.ok_bind, Number.isNaN_toFloat ha hx]
    rfl

/-- Kinds of scales that find the place of a number among breaks. -/
def ScaleKind.hasBreaks : ScaleKind → Bool
  | quantile | quantize | custom => true
  | _ => false

namespace Scale

variable {s : Scale} {m n : Number} {i j : Nat}

/-- The place at which a bucket scale puts a number, and its answer: the entry of the range at that place,
or the unknown value if the place is past the range, which is so for custom breaks only. -/
structure Puts (s : Scale) (n : Number) (place : Nat) (answer : Json) : Prop where
  bucket : s.bucket n = .ok place
  entry : place < s.range.length → s.range[place]? = some answer
  past : s.range.length ≤ place → answer = s.unknown ∧ s.kind = .custom

theorem isAboveJson_imp {stop : Json} (hmn : m.atMost n = true) (hn : isAboveJson n stop = .ok true) :
    isAboveJson m stop ≠ .ok false := by
  obtain ⟨k, hk, hless⟩ := Result.bind_eq_ok_iff.mp hn
  have hless' : m.less k = true := Number.less_of_atMost hmn (Except.ok.inj hless)
  simp [isAboveJson, hk, hless']

theorem isAbove_imp {stop : Number} (hmn : m.atMost n = true) (hn : isAbove n stop = .ok true) :
    isAbove m stop ≠ .ok false := by
  have hless : m.less stop = true := Number.less_of_atMost hmn (Except.ok.inj hn)
  simp [isAbove, hless]

theorem roundedBucket_mono {breaks : Result (List Number)} (hmn : m.atMost n = true)
    (hm : (do let breaks ← breaks; let x ← m.toFloat; upperBound (isAbove (.float x)) breaks) = .ok i)
    (hn : (do let breaks ← breaks; let x ← n.toFloat; upperBound (isAbove (.float x)) breaks) = .ok j) :
    i ≤ j := by
  simp only [Result.bind_eq_ok_iff] at hm hn
  obtain ⟨found, hfound, x, hx, hi⟩ := hm
  obtain ⟨found', hfound', y, hy, hj⟩ := hn
  obtain rfl : found = found' := Except.ok.inj (hfound.symm.trans hfound')
  exact upperBound_mono (fun _ _ => isAbove_imp (Number.toFloat_atMost hmn hx hy)) hi hj

theorem bucket_mono (hmn : m.atMost n = true) (hm : s.bucket m = .ok i) (hn : s.bucket n = .ok j) :
    i ≤ j := by
  unfold bucket at hm hn
  cases hkind : s.kind <;> simp only [hkind] at hm hn
  case custom => exact upperBound_mono (fun _ _ => isAboveJson_imp hmn) hm hn
  all_goals exact roundedBucket_mono hmn hm hn

theorem quantileBreaks_length {domain : List Json} {buckets : Nat} {breaks : List Number}
    (h : quantileBreaks domain buckets = .ok breaks) : breaks.length ≤ buckets - 1 := by
  simp only [quantileBreaks, Result.bind_eq_ok_iff] at h
  obtain ⟨numbers, -, h⟩ := h
  split at h
  · obtain rfl : [] = breaks := Except.ok.inj h
    exact Nat.zero_le _
  · rw [← Except.ok.inj h, List.length_map, List.length_range]

theorem quantizeBreaks_length {domain : List Json} {buckets : Nat} {breaks : List Number}
    (h : quantizeBreaks domain buckets = .ok breaks) : breaks.length = buckets - 1 := by
  simp only [quantizeBreaks, Result.bind_eq_ok_iff, Result.pure_eq_ok_iff] at h
  obtain ⟨low, -, high, -, rfl⟩ := h
  rw [List.length_map, List.length_range]

/-- There is one break less than entries, so that every place has its entry. -/
theorem Coherent.bucket_lt (hs : s.Coherent) (hkind : s.kind ≠ .custom) (hrange : s.range ≠ [])
    (h : s.bucket n = .ok i) : i < s.range.length := by
  have hpos : 0 < s.range.length := List.length_pos_iff.mpr hrange
  unfold bucket at h
  split at h
  · next hcustom => exact absurd hcustom hkind
  · rw [hs.breaks_eq] at h
    simp only [Result.bind_eq_ok_iff] at h
    obtain ⟨breaks, hbreaks, x, -, hi⟩ := h
    have := upperBound_le hi
    have := quantileBreaks_length hbreaks
    omega
  · simp only [Result.bind_eq_ok_iff] at h
    obtain ⟨breaks, hbreaks, x, -, hi⟩ := h
    have := upperBound_le hi
    have := quantizeBreaks_length hbreaks
    omega

variable {u v : Json}

theorem value_eq_bucketValue (hkind : s.kind.hasBreaks = true) (input : Json) :
    s.value input = s.bucketValue input := by
  unfold value
  cases h : s.kind <;> simp [ScaleKind.hasBreaks, h] at hkind ⊢

theorem value_unplaced (hkind : s.kind.hasBreaks = true) (hbuckets : s.hasBuckets = false)
    {input : Json} (h : s.value input = .ok u) : u = s.unknown := by
  rw [value_eq_bucketValue hkind] at h
  simp only [bucketValue, hbuckets, Result.bind_eq_ok_iff] at h
  obtain ⟨found, -, h⟩ := h
  split at h <;> exact (Except.ok.inj h).symm

/-- A number that has an answer has been put at a place. -/
theorem Coherent.value_puts (hs : s.Coherent) (hkind : s.kind.hasBreaks = true)
    (hbuckets : s.hasBuckets = true) (hn : n.position?.isSome = true)
    (h : s.value (.ofNumber n) = .ok u) : ∃ place, s.Puts n place u := by
  rw [value_eq_bucketValue hkind] at h
  simp only [bucketValue, hbuckets, if_true, Json.properNumber?_eq hn, Result.bind_eq_ok_iff,
    Result.map_eq_ok_iff] at h
  obtain ⟨_, ⟨x, -, rfl⟩, h⟩ := h
  simp only [Result.bind_eq_ok_iff, Result.pure_eq_ok_iff] at h
  obtain ⟨place, hplace, rfl⟩ := h
  refine ⟨place, hplace, fun hlt => ?_, fun hle => ⟨?_, ?_⟩⟩
  · rw [List.getElem?_eq_getElem hlt, Option.getD_some]
  · rw [List.getElem?_eq_none hle, Option.getD_none]
  · by_contra hother
    have hrange : s.range ≠ [] := by
      cases hk : s.kind <;> simp_all [ScaleKind.hasBreaks, hasBuckets]
    have := hs.bucket_lt hother hrange hplace
    omega

/-- How two numbers are answered the first of which is not the larger one: without buckets both are unknown,
otherwise the first is not put behind the second. -/
inductive InOrder (s : Scale) (m n : Number) (u v : Json) : Prop
  | unplaced (hbuckets : s.hasBuckets = false) (hu : u = s.unknown) (hv : v = s.unknown) : InOrder s m n u v
  | placed {i j : Nat} (hm : s.Puts m i u) (hn : s.Puts n j v) (hle : i ≤ j) : InOrder s m n u v

theorem Coherent.inOrder (hs : s.Coherent) (hkind : s.kind.hasBreaks = true) (hmn : m.atMost n = true)
    (hu : s.value (.ofNumber m) = .ok u) (hv : s.value (.ofNumber n) = .ok v) : s.InOrder m n u v := by
  cases hbuckets : s.hasBuckets with
  | false => exact .unplaced hbuckets (value_unplaced hkind hbuckets hu) (value_unplaced hkind hbuckets hv)
  | true =>
    obtain ⟨p, q, hp, hq, -⟩ := Number.atMost_iff.mp hmn
    obtain ⟨i, hi⟩ := hs.value_puts hkind hbuckets (by simp [hp]) hu
    obtain ⟨j, hj⟩ := hs.value_puts hkind hbuckets (by simp [hq]) hv
    exact .placed hi hj (bucket_mono hmn hi.bucket hj.bucket)

/-- How a scale with whole breaks puts a whole number: at the number of breaks that are not above it. The
only whole numbers without an answer are those too large for a floating-point number. -/
structure CountsBreaks (s : Scale) (breaks : List Int) (v : Int) : Prop where
  bucket : s.bucket (.int v) = .ok (breaks.countP fun b => b ≤ v)
  answers : ∀ x, Number.ofInt? v = .ok x → ∃ answer, s.value (.int v) = .ok answer ∧
    s.Puts (.int v) (breaks.countP fun b => b ≤ v) answer
  fails : ∀ fault, Number.ofInt? v = .error fault → s.value (.int v) = .error fault

theorem isAboveJson_int (v b : Int) : isAboveJson (.int v) (.int b) = .ok (decide (v < b)) := by
  have hless : (Number.int v).less (.int b) = decide (v < b) := by
    rw [Number.less_int rfl]
    exact decide_eq_decide.mpr Int.cast_lt
  rw [isAboveJson, ← hless]
  rfl

theorem upperBound_breaks {breaks : List Int} (h : breaks.Pairwise (· ≤ ·)) (v : Int) :
    upperBound (isAboveJson (.int v)) (breaks.map .int) = .ok (breaks.countP fun b => b ≤ v) := by
  have hascends : Ascends (fun b => decide (v < b)) breaks :=
    h.imp fun {a b} hle hless => by simp only [decide_eq_true_iff] at hless ⊢; omega
  obtain ⟨place, hplace, hwindow⟩ := upperBound_window hascends
  have hcount : breaks.countP (fun b => b ≤ v) = place := by
    rw [← hwindow.countP_eq]
    exact List.countP_congr fun b _ => by simp
  rw [hcount, ← hplace, upperBound, upperBoundBetween, bisect_map, List.length_map]
  simp only [isAboveJson_int]
  rfl

theorem countsBreaks (hkind : s.kind = .custom) {breaks : List Int} (hdomain : s.domain = breaks.map .int)
    (hsorted : breaks.Pairwise (· ≤ ·)) (v : Int) : s.CountsBreaks breaks v := by
  have hbucket : s.bucket (.int v) = .ok (breaks.countP fun b => b ≤ v) := by
    simp only [bucket, hkind, hdomain, upperBound_breaks hsorted]
  have hproper : (Json.int v).properNumber? = (Number.ofInt? v).map fun _ => some (.int v) :=
    Json.properNumber?_eq (a := .int v) rfl
  have hvalue : s.value (.int v) = s.bucketValue (.int v) :=
    value_eq_bucketValue (by rw [hkind]; rfl) _
  have hbuckets : s.hasBuckets = true := by rw [hasBuckets, hkind]
  refine ⟨hbucket, fun x hx => ⟨(s.range[breaks.countP fun b => b ≤ v]?).getD s.unknown, ?_, hbucket, ?_, ?_⟩,
    fun fault hfault => ?_⟩
  · rw [hvalue, bucketValue, hproper, hx]
    simp only [Except.map, Result.ok_bind, hbuckets, hbucket, if_true]
    rfl
  · intro hlt
    rw [List.getElem?_eq_getElem hlt, Option.getD_some]
  · intro hle
    exact ⟨by rw [List.getElem?_eq_none hle, Option.getD_none], hkind⟩
  · rw [hvalue, bucketValue, hproper, hfault]
    rfl

/-- Whatever has been requested of a bucket scale, numbers that it answers are put in their order, and among
whole breaks in order a whole number is put at the number of breaks that are not above it. -/
theorem places_in_order :
    (∀ kind requests m n u v, kind.hasBreaks = true → m.atMost n = true →
      ((new kind).after requests).value (.ofNumber m) = .ok u →
      ((new kind).after requests).value (.ofNumber n) = .ok v →
      ((new kind).after requests).InOrder m n u v) ∧
    ∀ s : Scale, ∀ breaks v, s.kind = .custom → s.domain = breaks.map .int →
      breaks.Pairwise (· ≤ ·) → s.CountsBreaks breaks v := by
  constructor
  · intro kind requests m n u v hkind hmn hu hv
    obtain ⟨hcoherent, hsame⟩ := (coherent_of_none (s := new kind) rfl).after requests
    refine hcoherent.inOrder ?_ hmn hu hv
    rw [hsame]
    exact hkind
  · intro s breaks v hkind hdomain hsorted
    exact countsBreaks hkind hdomain hsorted v

/-- A domain that descends, as its breaks then do. -/
def reversedThirds : List Request :=
  [.setDomain (.list [.int 9, .int 0]), .setRange (.list [.text "a", .text "b", .text "c"])]

/-- Two breaks with entries for two of their three places. -/
def twoForThree : Scale :=
  ((new .custom).withDomain ([10, 20].map .int)).withRange [.text "a", .text "b"]

theorem places_in_order_reversed :
    (∃ u v, ((new .quantize).after reversedThirds).value (.int 1) = .ok u ∧
      ((new .quantize).after reversedThirds).value (.int 4) = .ok v ∧
      ((new .quantize).after reversedThirds).InOrder (.int 1) (.int 4) u v) ∧
    twoForThree.CountsBreaks [10, 20] 20 := by
  obtain ⟨u, hu⟩ := Result.isOk_iff.mp
    (show (((new .quantize).after reversedThirds).value (.int 1)).isOk = true by decide +kernel)
  obtain ⟨v, hv⟩ := Result.isOk_iff.mp
    (show (((new .quantize).after reversedThirds).value (.int 4)).isOk = true by decide +kernel)
  have hordered := places_in_order.1 .quantize reversedThirds (.int 1) (.int 4) u v rfl
    (by decide) hu hv
  exact ⟨⟨u, v, hu, hv, hordered⟩, places_in_order.2 twoForThree [10, 20] 20 rfl rfl (by decide)⟩

end Scale

end MapLayers
