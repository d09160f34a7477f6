import MapLayers.Proofs.RangeEnds
import MapLayers.Proofs.SquareRoots
import MapLayers.Proofs.TwoStops
import MapLayers.Scale

/-!
# Bounds of sizes

A size lies between the two ends of a range, unless rounding carries it over one of them. Interpolation
takes a share of the way from one end to the other, and a share is at most the whole, in floating-point
arithmetic too; what is left to bound is the end of the way itself. Scales that choose an entry of the
range have no part in this.
-/

namespace MapLayers

namespace Number

open Binary64

theorem sub_value {lo hi way : Number} {l h : Rat} (hlo : lo.position? = some (.finite l))
    (hhi : hi.position? = some (.finite h)) (hl : 0 ≤ l) (hle : l ≤ h) (hh : h ≤ 2 ^ 52)
    (hway : hi.sub lo = .ok way) {y : Float} (hy : way.toFloat = .ok y) :
    value? y = some (rounded (h - l)) := by
  have hl' : rounded l = l := rounded_eq hlo (by rw [abs_of_nonneg hl]; linarith)
  have hh' : rounded h = h := rounded_eq hhi (by rw [abs_of_nonneg (by linarith)]; linarith)
  rcases combine_inv hway with ⟨m, n, rfl, rfl, rfl⟩ | ⟨u, v, hu, hv, rfl⟩
  · refine toFloat_value hy ?_
    simp only [position?, Option.some.injEq, Extended.finite.injEq] at hlo hhi ⊢
    rw [← hlo, ← hhi]
    push_cast
    rfl
  · obtain rfl : u - v = y := by simpa [toFloat] using hy
    rw [value?_sub, toFloat_value hu hhi, toFloat_value hv hlo, hl', hh']
    exact nearestValue?_of_le (le_rounded representable_zero (by linarith))
      ((rounded_mono (show h - l ≤ h by linarith)).trans_eq hh')
      (hh.trans_lt (by rw [← zpow_natCast]; exact zpow_two_lt_iff.mpr (by decide)))

theorem sub_span {lo hi way : Number} {l h : Rat} (hlo : lo.position? = some (.finite l))
    (hhi : hi.position? = some (.finite h)) (hway : hi.sub lo = .ok way) {y : Float}
    (hy : way.toFloat = .ok y) : ∀ w, value? y = some w → IsSpan l h w := by
  intro w hw
  rcases combine_inv hway with ⟨m, n, rfl, rfl, rfl⟩ | ⟨u, v, hu, hv, rfl⟩
  · have := toFloat_value (q := h - l) hy (by
      simp only [position?, Option.some.injEq, Extended.finite.injEq] at hlo hhi ⊢
      rw [← hlo, ← hhi]
      push_cast
      rfl)
    rw [this, Option.some.injEq] at hw
    exact .inl hw.symm
  · obtain rfl : u - v = y := by simpa [toFloat] using hy
    rw [value?_sub, toFloat_value hu hhi, toFloat_value hv hlo] at hw
    exact .inr (eq_of_nearestValue? hw)

end Number

namespace Interpolation

open Binary64

/-- A share of a whole, unless it is none at all. -/
def IsShare (t : Float) : Prop :=
  isNaN t = true ∨ ∃ r, value? t = some r ∧ 0 ≤ r ∧ r ≤ 1

/-- The covered part of a stretch is a share of it, whatever is rounded or overflows on the way. -/
theorem isShare_div {start stop x : Float} (hlow : (Number.float start).atMost (.float x) = true)
    (hhigh : (Number.float x).atMost (.float stop) = true) (hne : (stop - start == 0) = false) :
    IsShare ((x - start) / (stop - start)) := by
  have hwhole := value?_sub stop start
  have hcovered := value?_sub x start
  cases hw : value? (stop - start) with
  | none =>
    rcases div_of_value?_eq_none (x := x - start) hw with hnan | ⟨-, hzero⟩
    · exact .inl hnan
    · exact .inr ⟨0, hzero, le_rfl, by norm_num⟩
  | some w =>
    rw [hw] at hwhole
    obtain ⟨q, hq, hwhole⟩ := Option.bind_eq_some_iff.mp hwhole.symm
    obtain ⟨p, hp, hwhole⟩ := Option.bind_eq_some_iff.mp hwhole
    have hx : ∃ r, value? x = some r := by
      cases hx : value? x with
      | some r => exact ⟨r, rfl⟩
      | none =>
        have hposInf := Number.atMost_of_value?_eq_none hlow hp hx
        rw [Number.posInf_atMost hhigh hposInf] at hq
        simp at hq
    obtain ⟨r, hr⟩ := hx
    have hpr := (Number.atMost_float hp hr).mp hlow
    have hrq := (Number.atMost_float hr hq).mp hhigh
    have hwvalue := eq_of_nearestValue? hwhole
    have hw0 : w ≠ 0 := fun h => value?_ne_zero hne (h ▸ hw)
    have hpart : 0 ≤ rounded (r - p) := rounded_zero ▸ rounded_mono (by linarith)
    have hpartw : rounded (r - p) ≤ w := hwvalue ▸ rounded_mono (by linarith)
    have hwpos : 0 < w := lt_of_le_of_ne (hpart.trans hpartw) hw0.symm
    have hpartvalue : value? (x - start) = some (rounded (r - p)) := by
      rw [hcovered, hr, hp]
      exact nearestValue?_of_le hpart hpartw (lt_of_value?_eq_some hw)
    have hzero := le_rounded representable_zero (div_nonneg hpart hwpos.le)
    have hone := rounded_le representable_one ((div_le_one hwpos).mpr hpartw)
    refine .inr ⟨rounded (rounded (r - p) / w), ?_, hzero, hone⟩
    rw [value?_div hw hw0, hpartvalue]
    exact nearestValue?_of_le hzero hone (one_lt_zpow₀ (by norm_num) (by decide))

variable {lo hi size : Number} {l h r : Rat} {t : Float}

theorem isShare_share {start stop x : Float} (hlow : (Number.float start).atMost (.float x) = true)
    (hhigh : (Number.float x).atMost (.float stop) = true) : IsShare (share start stop x) := by
  unfold share
  split
  · exact .inr ⟨1 / 2, value?_half, by norm_num, by norm_num⟩
  · next hother =>
    exact isShare_div hlow hhigh (Bool.eq_false_iff.mpr fun h => hother (same_of_sub_beq_zero h))

theorem between_inv (hrun : between lo hi (.float t) = .ok size) : ∃ way x y,
    hi.sub lo = .ok way ∧ way.toFloat = .ok y ∧ lo.toFloat = .ok x ∧ size = .float (x + y * t) := by
  simp only [between, Result.bind_eq_ok_iff] at hrun
  obtain ⟨way, hway, part, hpart, hsize⟩ := hrun
  obtain ⟨_, _, -, hfloat, -⟩ | ⟨y, t', hy, ht, rfl⟩ := Number.combine_inv hpart
  · simp at hfloat
  obtain rfl : t = t' := by simpa [Number.toFloat] using ht
  rcases Number.combine_inv hsize with ⟨_, _, -, hfloat, -⟩ | ⟨x, z, hx, hz, rfl⟩
  · simp at hfloat
  obtain rfl : y * t = z := by simpa [Number.toFloat] using hz
  exact ⟨way, x, y, hway, hy, hx, rfl⟩

theorem IsShare.product {t y : Float} {w : Rat} (ht : IsShare t) (hy : value? y = some w) (hw : 0 ≤ w) :
    isNaN (y * t) = true ∨ ∃ p, value? (y * t) = some p ∧ 0 ≤ p ∧ p ≤ w := by
  rcases ht with hnan | ⟨r, hr, hr0, hr1⟩
  · exact .inl (isNaN_mul hnan)
  · have hzero := le_rounded representable_zero (mul_nonneg hw hr0)
    have hwhole := rounded_le (of_value?_eq_some hy).1 (mul_le_of_le_one_right hw hr1)
    refine .inr ⟨rounded (w * r), ?_, hzero, hwhole⟩
    rw [value?_mul, hy, hr]
    exact nearestValue?_of_le hzero hwhole (lt_of_value?_eq_some hy)

theorem between_near (ht : IsShare t) (hlo : lo.position? = some (.finite l))
    (hhi : hi.position? = some (.finite h)) (hle : l ≤ h)
    (hrun : between lo hi (.float t) = .ok size) {q : Rat}
    (hq : size.position? = some (.finite q)) : q ≤ h + slack l h := by
  obtain ⟨way, x, y, hway, hy, hx, rfl⟩ := between_inv hrun
  have hsum := value?_add x (y * t)
  have hprod := value?_mul y t
  rw [Number.position?_float.mp hq] at hsum
  obtain ⟨a, ha, hsum⟩ := Option.bind_eq_some_iff.mp hsum.symm
  obtain ⟨p, hp, hsum⟩ := Option.bind_eq_some_iff.mp hsum
  rw [hp] at hprod
  obtain ⟨w, hw, hprod⟩ := Option.bind_eq_some_iff.mp hprod.symm
  have hspan := Number.sub_span hlo hhi hway hy w hw
  have ha' : a = rounded l := by
    rw [Number.toFloat_value hx hlo, Option.some.injEq] at ha
    exact ha.symm
  rcases ht.product hw (hspan.nonneg hle) with hnan | ⟨p', hp', -, hpw⟩
  · rw [value?_of_isNaN hnan] at hp
    simp at hp
  · rw [hp, Option.some.injEq] at hp'
    rw [eq_of_nearestValue? hsum]
    refine le_trans (rounded_mono ?_) hspan.end_le
    rw [ha', hp']
    linarith

/-- It does not pass a whole number above `h` at all, among numbers that are not negative and not large. -/
theorem between_le (ht : IsShare t) (hlo : lo.position? = some (.finite l))
    (hhi : hi.position? = some (.finite h)) (hl : 0 ≤ l) (hle : l ≤ h) {n : Int} (hhn : h ≤ n)
    (hn : n ≤ 2 ^ 52) (hrun : between lo hi (.float t) = .ok size) :
    (Number.int n).less size = false := by
  obtain ⟨way, x, y, hway, hy, hx, rfl⟩ := between_inv hrun
  have hn' : (n : Rat) ≤ 2 ^ 52 := by exact_mod_cast hn
  have hxvalue : value? x = some l := by
    rw [Number.toFloat_value hx hlo, Number.rounded_eq hlo (by rw [abs_of_nonneg hl]; linarith)]
  have hyvalue := Number.sub_value hlo hhi hl hle (hhn.trans hn') hway hy
  have hspan : 0 ≤ rounded (h - l) := le_rounded representable_zero (by linarith)
  rcases ht.product hyvalue hspan with hnan | ⟨p, hp, hp0, hpw⟩
  · exact Number.less_of_isNaN (isNaN_add hnan)
  · have hend := (rounded_mono (show l + p ≤ l + rounded (h - l) by linarith)).trans
      (end_le_ceil hl hle hn hhn)
    have hvalue : value? (x + y * t) = some (rounded (l + p)) := by
      rw [value?_add, hxvalue, hp]
      exact nearestValue?_of_le (le_rounded representable_zero (by linarith)) (hend.trans hn')
        (by rw [← zpow_natCast]; exact zpow_two_lt_iff.mpr (by decide))
    rw [Number.less_int (Number.position?_float.mpr hvalue)]
    simpa using hend

end Interpolation

namespace Json

theorem ofNumber_inj {a b : Number} (h : ofNumber a = ofNumber b) : a = b := by
  cases a <;> cases b <;> simp_all [ofNumber]

theorem ofNumber_ne_null (a : Number) : ofNumber a ≠ .null := by
  cases a <;> simp [ofNumber]

theorem number?_ofNumber (a : Number) : (ofNumber a).number? = some a := by
  cases a <;> rfl

theorem toFloat_ofNumber (a : Number) : (ofNumber a).toFloat = a.toFloat := by
  cases a <;> rfl

theorem properNumber?_of_toFloat {a : Number} {q : Rat} {x : Float}
    (hq : a.position? = some (.finite q)) (hx : a.toFloat = .ok x) :
    (ofNumber a).properNumber? = .ok (some a) := by
  have hnan : Binary64.isNaN x ≠ true := by
    intro hnan
    have := Number.toFloat_value hx hq
    rw [Binary64.value?_of_isNaN hnan] at this
    simp at this
  simp only [properNumber?, number?_ofNumber, hx, Result.ok_bind, if_neg hnan]
  rfl

theorem properNumber?_ofNumber {a : Number} {q : Rat} (hq : a.position? = some (.finite q))
    {found : Option Number} (h : (ofNumber a).properNumber? = .ok found) : found = some a := by
  have hfloat := h
  simp only [properNumber?, number?_ofNumber, Result.bind_eq_ok_iff] at hfloat
  obtain ⟨x, hx, -⟩ := hfloat
  rw [properNumber?_of_toFloat hq hx] at h
  exact (Except.ok.inj h).symm

end Json

namespace ScaleKind

/-- Whether a scale of the kind interpolates between the entries of its range. -/
def interpolates : ScaleKind → Bool
  | linear | log | sqrt => true
  | _ => false

end ScaleKind

namespace Scale

open Binary64 (rounded_zero sign_of_signBit signBit slack value? value?_abs value?_neg value?_sqrt
  value?_sqrt_mono)

variable {s : Scale} {value : Json}

/-- Linear axes and those of square roots keep the order of numbers. Logarithms are left to the platform,
which says nothing about theirs. -/
theorem transform?_mono {kind : ScaleKind} {x y : Float} {p q : Rat}
    (hkind : kind = .linear ∨ kind = .sqrt) (hx : value? x = some p) (hy : value? y = some q)
    (hle : p ≤ q) : ∃ a b, transform? kind x = some a ∧ transform? kind y = some b ∧
      (Number.float a).atMost (.float b) = true := by
  rcases hkind with rfl | rfl
  · exact ⟨x, y, rfl, rfl, (Number.atMost_float hx hy).mpr hle⟩
  · have hxroot : value? x.abs = some |p| := by rw [value?_abs, hx]; rfl
    have hyroot : value? y.abs = some |q| := by rw [value?_abs, hy]; rfl
    obtain ⟨r, hr, hr0, hrzero, -⟩ := value?_sqrt hxroot (abs_nonneg p)
    obtain ⟨t, ht, ht0, htzero, -⟩ := value?_sqrt hyroot (abs_nonneg q)
    have hneg {z : Float} {v : Rat} (hz : value? z = some v) : value? (-z) = some (-v) := by
      rw [value?_neg, hz]
      rfl
    refine ⟨_, _, rfl, rfl, ?_⟩
    cases hxbit : signBit x <;> cases hybit : signBit y <;>
      have hp := sign_of_signBit hx <;> have hq := sign_of_signBit hy <;>
      simp only [hxbit, hybit, if_true, Bool.false_eq_true, if_false] at hp hq ⊢
    case false.false =>
      obtain ⟨_, _, hr', ht', -, hroots⟩ := value?_sqrt_mono hxroot hyroot (abs_nonneg p)
        (by rwa [abs_of_nonneg hp, abs_of_nonneg hq])
      exact (Number.atMost_float hr' ht').mpr hroots
    case false.true =>
      -- Both numbers are zeros, and so are their roots.
      have hr' := hrzero 0 le_rfl (by rw [abs_of_nonneg hp]; linarith)
      have ht' := htzero 0 le_rfl (by rw [abs_of_nonpos hq]; linarith)
      rw [rounded_zero] at hr' ht'
      exact (Number.atMost_float hr (hneg ht)).mpr (by linarith)
    case true.false =>
      exact (Number.atMost_float (hneg hr) ht).mpr (by linarith)
    case true.true =>
      obtain ⟨_, _, ht', hr', -, hroots⟩ := value?_sqrt_mono hyroot hxroot (abs_nonneg q)
        (by rw [abs_of_nonpos hp, abs_of_nonpos hq]; linarith)
      exact (Number.atMost_float (hneg hr') (hneg ht')).mpr (by linarith)

/-- The value has a position on the axis of the scale that is neither below the first stop nor above the
last one. -/
def BetweenStops (s : Scale) (value : Json) : Prop :=
  ∃ n x position stops first last, value.properNumber? = .ok (some n) ∧ n.toFloat = .ok x ∧
    transform? s.kind x = some position ∧ stops? s.kind s.domain = .ok (some stops) ∧
    stops.head? = some first ∧ stops.getLast? = some last ∧
    first.atMost (.float position) = true ∧ (Number.float position).atMost last = true

/-- The value lies in the domain of the scale. Buckets leave no value out. -/
def InDomain (s : Scale) (value : Json) : Prop :=
  if s.kind.interpolates then s.BetweenStops value
  else if s.kind.isCategorical then (s.place? value).isSome = true
  else True

/-- A number from one end of the domain to the other, all three of them floating-point numbers at most
rounded. -/
structure BetweenEnds (s : Scale) (n : Number) (a b : Number) (p q r : Rat) : Prop where
  domain : s.domain = [.ofNumber a, .ofNumber b]
  start : a.position? = some (.finite p)
  number : n.position? = some (.finite q)
  stop : b.position? = some (.finite r)
  start_float : ∃ x, a.toFloat = .ok x
  number_float : ∃ x, n.toFloat = .ok x
  stop_float : ∃ x, b.toFloat = .ok x
  above : p ≤ q
  below : q ≤ r

theorem BetweenEnds.inDomain {a b n : Number} {p q r : Rat} (h : s.BetweenEnds n a b p q r)
    (hkind : s.kind = .linear ∨ s.kind = .sqrt) : s.InDomain (.ofNumber n) := by
  obtain ⟨start, hstart⟩ := h.start_float
  obtain ⟨x, hx⟩ := h.number_float
  obtain ⟨stop, hstop⟩ := h.stop_float
  have hvalue := Number.toFloat_value hx h.number
  obtain ⟨first, position, hfirst, hposition, hlow⟩ := transform?_mono hkind
    (Number.toFloat_value hstart h.start) hvalue (Binary64.rounded_mono h.above)
  obtain ⟨position', last, hposition', hlast, hhigh⟩ := transform?_mono hkind hvalue
    (Number.toFloat_value hstop h.stop) (Binary64.rounded_mono h.below)
  obtain rfl : position = position' := Option.some.inj (hposition.symm.trans hposition')
  have hinterpolates : s.kind.interpolates = true := by
    rcases hkind with hk | hk <;> rw [hk] <;> rfl
  rw [InDomain, if_pos hinterpolates]
  refine ⟨n, x, position, [.float first, .float last], .float first, .float last,
    Json.properNumber?_of_toFloat h.number hx, hx, hposition, ?_, rfl, rfl, hlow, hhigh⟩
  simp [h.domain, stops?, Json.toFloat_ofNumber, hstart, hstop, hfirst, hlast]

/-- How sizes of a scale stay below the end `h` of its range. They are near enough, and beyond what an
interpolation between numbers that are large or negative may add, none is above the whole number. -/
structure Fits (kind : ScaleKind) (l h : Rat) (size : Number) : Prop where
  near : ∀ q, size.position? = some (.finite q) → q ≤ h + slack l h
  exact : kind ≠ .point → (kind.interpolates = true → 0 ≤ l ∧ h ≤ 2 ^ 52) →
    (Number.int h.ceil).less size = false

/-- The scale has a range of two numbers in ascending order, and gives nothing for other values. -/
structure Ranges (s : Scale) (lo hi : Number) (l h : Rat) : Prop where
  range : s.range = [.ofNumber lo, .ofNumber hi]
  unknown : s.unknown = .null
  low : lo.position? = some (.finite l)
  high : hi.position? = some (.finite h)
  le : l ≤ h

variable {lo hi size : Number} {l h : Rat}

theorem slack_nonneg (l h : Rat) : 0 ≤ slack l h := by
  unfold slack
  positivity

theorem Fits.of_le {kind : ScaleKind} {q : Rat} (hsize : size.position? = some (.finite q))
    (hle : q ≤ h) : Fits kind l h size := by
  constructor
  · intro p hp
    rw [hsize, Option.some.injEq, Extended.finite.injEq] at hp
    have := slack_nonneg l h
    linarith
  · intro _ _
    have hceil : h ≤ h.ceil := Rat.le_ceil
    rw [Number.less_int hsize]
    exact decide_eq_false (not_lt.mpr (hle.trans hceil))

theorem Ranges.fits_entry (hs : s.Ranges lo hi l h) {kind : ScaleKind} {i : Nat}
    (hrun : (s.range[i]?).getD s.unknown = .ofNumber size) : Fits kind l h size := by
  rw [hs.range, hs.unknown] at hrun
  match i with
  | 0 => exact Json.ofNumber_inj hrun ▸ .of_le hs.low hs.le
  | 1 => exact Json.ofNumber_inj hrun ▸ .of_le hs.high le_rfl
  | i + 2 => exact absurd hrun.symm (Json.ofNumber_ne_null size)

theorem Ranges.unknown_ne (hs : s.Ranges lo hi l h) (hrun : s.unknown = .ofNumber size) : False :=
  Json.ofNumber_ne_null size (hrun.symm.trans hs.unknown)

theorem Ranges.ordinalValue_fits (hs : s.Ranges lo hi l h) {kind : ScaleKind}
    (hrun : s.ordinalValue value = .ofNumber size) : Fits kind l h size := by
  unfold ordinalValue at hrun
  split at hrun
  · exact hs.fits_entry hrun
  · exact (hs.unknown_ne hrun).elim

theorem Ranges.bucketValue_fits (hs : s.Ranges lo hi l h) {kind : ScaleKind}
    (hrun : s.bucketValue value = .ok (.ofNumber size)) : Fits kind l h size := by
  simp only [bucketValue, Result.bind_eq_ok_iff] at hrun
  obtain ⟨found, -, hrun⟩ := hrun
  split at hrun
  · exact (hs.unknown_ne (Except.ok.inj hrun)).elim
  · split at hrun
    · simp only [Result.bind_eq_ok_iff, Result.pure_eq_ok_iff] at hrun
      obtain ⟨i, -, hrun⟩ := hrun
      exact hs.fits_entry hrun
    · exact (hs.unknown_ne (Except.ok.inj hrun)).elim

theorem stops?_cons {kind : ScaleKind} {a : Json} {rest : List Json} {stops : List Number}
    (h : stops? kind (a :: rest) = .ok (some stops)) :
    ∃ x others, stops = .float x :: others ∧ stops? kind rest = .ok (some others) := by
  unfold stops? at h
  split at h
  · split at h <;> simp at h
  · split at h
    · simp at h
    · next position _ =>
      simp only [Result.bind_eq_ok_iff, Result.pure_eq_ok_iff, Option.map_eq_some_iff] at h
      obtain ⟨found, hfound, others, rfl, rfl⟩ := h
      exact ⟨position, others, rfl, hfound⟩

theorem stops?_pair {kind : ScaleKind} {a b : Json} {stops : List Number}
    (h : stops? kind [a, b] = .ok (some stops)) : ∃ x y, stops = [.float x, .float y] := by
  obtain ⟨x, others, rfl, hothers⟩ := stops?_cons h
  obtain ⟨y, rest, rfl, hrest⟩ := stops?_cons hothers
  obtain rfl : [] = rest := by simpa [stops?] using hrest
  exact ⟨x, y, rfl⟩

theorem Ranges.mix_inv (hs : s.Ranges lo hi l h) {t : Number} {found : Json}
    (hrun : mix (.ofNumber lo) (.ofNumber hi) t = .ok found) :
    ∃ size, Interpolation.between lo hi t = .ok size ∧ found = .ofNumber size := by
  simp only [mix, Result.bind_eq_ok_iff] at hrun
  obtain ⟨first, hfirst, hrun⟩ := hrun
  obtain rfl := Json.properNumber?_ofNumber hs.low hfirst
  simp only [Result.bind_eq_ok_iff] at hrun
  obtain ⟨second, hsecond, hrun⟩ := hrun
  obtain rfl := Json.properNumber?_ofNumber hs.high hsecond
  simp only [Result.map_eq_ok_iff] at hrun
  obtain ⟨size, hbetween, rfl⟩ := hrun
  exact ⟨size, hbetween, rfl⟩

theorem Ranges.continuousValue_fits (hs : s.Ranges lo hi l h) (hinterpolates : s.kind.interpolates = true)
    (hdomain : s.domain.length ≤ 2) (hvalue : s.BetweenStops value)
    (hrun : s.continuousValue value = .ok (.ofNumber size)) : Fits s.kind l h size := by
  obtain ⟨n, x, position, stops, first, last, hn, hx, hposition, hstops, hfirst, hlast, hlow, hhigh⟩ :=
    hvalue
  simp only [continuousValue, hn, Result.ok_bind] at hrun
  split at hrun
  · exact (hs.unknown_ne (Except.ok.inj hrun)).elim
  next hlength =>
  simp only [hx, Result.ok_bind, hposition, hstops, Result.bind_eq_ok_iff, Result.pure_eq_ok_iff] at hrun
  obtain ⟨found, hfound, hrun⟩ := hrun
  have hrange : s.range.length = 2 := by rw [hs.range]; rfl
  simp only [hrange, Bool.or_eq_true, decide_eq_true_eq, not_or, not_lt] at hlength
  obtain ⟨a, b, hab⟩ := List.length_eq_two.mp (le_antisymm hdomain hlength.1)
  rw [hab] at hstops
  obtain ⟨start, stop, rfl⟩ := stops?_pair hstops
  obtain rfl : .float start = first := Option.some.inj hfirst
  obtain rfl : .float stop = last := Option.some.inj hlast
  rw [hs.range] at hfound
  rw [Interpolation.interpolate?_two, Result.map_eq_ok_iff] at hfound
  obtain ⟨mixed, hmixed, rfl⟩ := hfound
  have hshare := Interpolation.isShare_share hlow hhigh
  obtain ⟨size', hbetween, rfl⟩ := hs.mix_inv hmixed
  obtain rfl := Json.ofNumber_inj hrun
  constructor
  · intro q hq
    exact Interpolation.between_near hshare hs.low hs.high hs.le hbetween hq
  · intro _ hsmall
    obtain ⟨hl, hh⟩ := hsmall hinterpolates
    have hceil : h ≤ h.ceil := Rat.le_ceil
    have hn : h.ceil ≤ 2 ^ 52 := Rat.ceil_le_iff.mpr (by exact_mod_cast hh)
    exact Interpolation.between_le hshare hs.low hs.high hl hs.le hceil hn hbetween

open Binary64 in
/-- Numbers of gaps keep their order as floating-point numbers. -/
theorem counts_ordered {gaps i : Nat} {g k : Rat} (hi : i ≤ gaps)
    (hg : value? (Float.ofNat gaps) = some g) (hk : value? (Float.ofNat i) = some k) :
    ∃ count, value? (Float.ofNat (max 1 gaps)) = some count ∧
      1 ≤ count ∧ g ≤ count ∧ k ≤ g ∧ 0 ≤ g := by
  obtain ⟨count, hcount⟩ : ∃ count, value? (Float.ofNat (max 1 gaps)) = some count := by
    rcases Nat.eq_zero_or_pos gaps with rfl | hpos
    · exact ⟨(1 : Nat), by rw [value?_ofNat]; exact nearestValue?_natCast (by decide)⟩
    · exact ⟨g, by rw [max_eq_right hpos, hg]⟩
  refine ⟨count, hcount, ?_⟩
  rw [value?_ofNat] at hg hk hcount
  rw [eq_of_nearestValue? hg, eq_of_nearestValue? hk, eq_of_nearestValue? hcount]
  refine ⟨le_rounded representable_one ?_, rounded_mono ?_, rounded_mono ?_,
    le_rounded representable_zero (Nat.cast_nonneg gaps)⟩
  · exact_mod_cast le_max_left 1 gaps
  · exact_mod_cast le_max_right 1 gaps
  · exact_mod_cast hi

open Binary64 in
/-- The size at a place in even steps from `start` to `stop`. -/
theorem steps_near {start stop : Float} (hstart : value? start = some (rounded l))
    (hstop : value? stop = some (rounded h)) (hle : l ≤ h) {gaps i : Nat} (hi : i ≤ gaps) {q : Rat}
    (hq : value? (start + (stop - start - (stop - start) / Float.ofNat (max 1 gaps) *
      Float.ofNat gaps) * 0.5 + (stop - start) / Float.ofNat (max 1 gaps) * Float.ofNat i) = some q) :
    q ≤ h + slack l h := by
  -- A finite size has been computed from finite numbers only.
  rw [value?_add] at hq
  obtain ⟨x, hx, hq⟩ := Option.bind_eq_some_iff.mp hq
  obtain ⟨j, hj, hq⟩ := Option.bind_eq_some_iff.mp hq
  rw [value?_add, hstart, Option.bind_some] at hx
  obtain ⟨offset, hoffset, hx⟩ := Option.bind_eq_some_iff.mp hx
  rw [value?_mul, value?_half] at hoffset
  obtain ⟨rest, hrest, hoffset⟩ := Option.bind_eq_some_iff.mp hoffset
  rw [value?_sub] at hrest
  obtain ⟨d, hd, hrest⟩ := Option.bind_eq_some_iff.mp hrest
  obtain ⟨p, hp, hrest⟩ := Option.bind_eq_some_iff.mp hrest
  rw [value?_mul] at hp hj
  obtain ⟨step, hstep, hp⟩ := Option.bind_eq_some_iff.mp hp
  obtain ⟨g, hg, hp⟩ := Option.bind_eq_some_iff.mp hp
  rw [hstep, Option.bind_some] at hj
  obtain ⟨k, hk, hj⟩ := Option.bind_eq_some_iff.mp hj
  obtain ⟨count, hcount, hone, hgcount, hkg, hg0⟩ := counts_ordered hi hg hk
  have hgsize := lt_of_value?_eq_some hg
  rw [value?_div hcount (by linarith), hd, Option.bind_some] at hstep
  have hstepvalue := eq_of_nearestValue? hstep
  rw [value?_sub, hstart, hstop] at hd
  have hspan : IsSpan l h d := .inr (eq_of_nearestValue? hd)
  have hd0 := hspan.nonneg hle
  have hstep0 : 0 ≤ step :=
    hstepvalue ▸ le_rounded representable_zero (div_nonneg hd0 (by linarith))
  have hpvalue := eq_of_nearestValue? hp
  have hp0 : 0 ≤ p := hpvalue ▸ le_rounded representable_zero (mul_nonneg hstep0 hg0)
  have hpd : p ≤ d + d / 2 ^ 51 + 1 / 2 ^ 50 := by
    rw [hpvalue, hstepvalue]
    exact steps_le hd0 hg0 hgcount hone hgsize.le
  have hjp : j ≤ p := by
    rw [eq_of_nearestValue? hj, hpvalue]
    exact rounded_mono (mul_le_mul_of_nonneg_left hkg hstep0)
  have hend := lastStep_le hspan hle hp0 hpd
  rw [eq_of_nearestValue? hq, eq_of_nearestValue? hx, eq_of_nearestValue? hoffset,
    eq_of_nearestValue? hrest]
  exact (rounded_mono (by linarith)).trans hend

theorem Ranges.pointValue_fits (hs : s.Ranges lo hi l h)
    (hrun : s.pointValue value = .ok (.ofNumber size)) : Fits .point l h size := by
  unfold pointValue at hrun
  rw [hs.range] at hrun
  split at hrun
  · next i first second rest hplace hrange =>
    obtain ⟨rfl, rfl, -⟩ : .ofNumber lo = first ∧ .ofNumber hi = second ∧ rest = [] := by
      simpa using hrange
    simp only [Json.toFloat_ofNumber, Result.bind_eq_ok_iff, Result.pure_eq_ok_iff] at hrun
    obtain ⟨start, hstart, stop, hstop, hsize⟩ := hrun
    have hi : i ≤ s.domain.length - 1 := by
      have := (List.findIdx?_eq_some_iff_findIdx_eq.mp hplace).1
      omega
    obtain rfl := Json.ofNumber_inj (a := .float _) hsize
    constructor
    · intro q hq
      exact steps_near (Number.toFloat_value hstart hs.low) (Number.toFloat_value hstop hs.high) hs.le
        hi (Number.position?_float.mp hq)
    · intro hpoint
      exact absurd rfl hpoint
  · exact (hs.unknown_ne (Except.ok.inj hrun)).elim

/-- The sizes that a scale gives to the values of its domain fit its range, whatever its kind; only the
identity gives the values themselves. -/
theorem Ranges.value_fits (hs : s.Ranges lo hi l h) (hkind : s.kind ≠ .identity)
    (hdomain : s.kind.interpolates = true → s.domain.length ≤ 2) (hvalue : s.InDomain value)
    (hrun : s.value value = .ok (.ofNumber size)) : Fits s.kind l h size := by
  unfold InDomain at hvalue
  cases hk : s.kind <;> simp only [Scale.value, hk] at hrun
  case linear | log | sqrt =>
    have hinterpolates : s.kind.interpolates = true := by rw [hk]; rfl
    rw [if_pos hinterpolates] at hvalue
    exact hk ▸ hs.continuousValue_fits hinterpolates (hdomain hinterpolates) hvalue hrun
  case quantile | quantize | custom => exact hs.bucketValue_fits hrun
  case ordinal => exact hs.ordinalValue_fits (Except.ok.inj hrun)
  case point => exact hs.pointValue_fits hrun
  case identity => exact absurd hk hkind

end Scale

end MapLayers
