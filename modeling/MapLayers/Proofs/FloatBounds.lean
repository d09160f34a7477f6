import MapLayers.Proofs.FloatArithmetic
import MapLayers.Proofs.RangeEnds

/-!
# Bounds of floating-point results

Floating-point numbers compare as the rationals that they denote. A finite result has finite operands and
is the exact result rounded, so bounds that are numbers of the format pass from the exact result to it.
-/

namespace MapLayers.Binary64

open Float.Model (UnpackedFloat)
open Float.Model.UnpackedFloat

variable {x y : Float} {p q : Rat}

/-- An ordering of two rationals. -/
def Orders (p q : Rat) : Ordering → Prop
  | .lt => p < q
  | .eq => p = q
  | .gt => q < p

theorem Orders.swap {o : Ordering} (h : Orders p q o) : Orders (-p) (-q) o.swap := by
  cases o with
  | lt => exact neg_lt_neg h
  | eq => exact congrArg Neg.neg h
  | gt => exact neg_lt_neg h

/-- Exponents come first, then mantissas. -/
theorem InPlace.orders {m n : Nat} {e f : Int} (h : InPlace m e) (h' : InPlace n f) :
    Orders (m * 2 ^ e) (n * 2 ^ f) ((compare e f).then (compare m n)) := by
  cases hexponent : compare e f with
  | lt => exact h.lt_of_exponent h' (Int.compare_eq_lt.mp hexponent)
  | gt => exact h'.lt_of_exponent h (Int.compare_eq_gt.mp hexponent)
  | eq =>
    obtain rfl : e = f := Int.compare_eq_eq.mp hexponent
    have hpos := zpow_two_pos e
    cases hmantissa : compare m n with
    | lt =>
      have hless : (m : Rat) < n := by exact_mod_cast Nat.compare_eq_lt.mp hmantissa
      exact mul_lt_mul_of_pos_right hless hpos
    | eq => rw [Nat.compare_eq_eq.mp hmantissa]; rfl
    | gt =>
      have hmore : (n : Rat) < m := by exact_mod_cast Nat.compare_eq_gt.mp hmantissa
      exact mul_lt_mul_of_pos_right hmore hpos

/-- Stored numbers compare as the rationals that they denote. -/
theorem Canonical.compare_orders {u v : UnpackedFloat} (hu : Canonical u) (hv : Canonical v)
    (hp : ratOf? u = some p) (hq : ratOf? v = some q) :
    ∃ o, u.compare v = some o ∧ Orders p q o := by
  have hsize {m : Nat} {e : Int} (hm : 0 < m) : (0 : Rat) < m * 2 ^ e :=
    mul_pos (by exact_mod_cast hm) (zpow_two_pos e)
  rcases hu.cases_rat hp with ⟨s, rfl, rfl⟩ | ⟨s, m, e, hm, rfl, hplace, -, rfl⟩ <;>
    rcases hv.cases_rat hq with ⟨t, rfl, rfl⟩ | ⟨t, n, f, hn, rfl, hplace', -, rfl⟩
  · exact ⟨.eq, rfl, rfl⟩
  · have hn' := hsize hn (e := f)
    cases t with
    | negative => exact ⟨.gt, rfl, neg_lt_zero.mpr hn'⟩
    | positive => exact ⟨.lt, rfl, hn'⟩
  · have hm' := hsize hm (e := e)
    cases s with
    | negative => exact ⟨.lt, rfl, neg_lt_zero.mpr hm'⟩
    | positive => exact ⟨.gt, rfl, hm'⟩
  · have hm' := hsize hm (e := e)
    have hn' := hsize hn (e := f)
    have horders := hplace.orders hplace'
    cases s <;> cases t
    · exact ⟨_, rfl, horders.swap⟩
    · exact ⟨.lt, rfl, (neg_lt_zero.mpr hm').trans hn'⟩
    · exact ⟨.gt, rfl, (neg_lt_zero.mpr hn').trans hm'⟩
    · exact ⟨_, rfl, horders⟩

theorem compare_orders (hx : value? x = some p) (hy : value? y = some q) :
    ∃ o, x.toModel.unpack.compare y.toModel.unpack = some o ∧ Orders p q o :=
  (canonical x).compare_orders (canonical y) (value?_eq x ▸ hx) (value?_eq y ▸ hy)

theorem lt_iff (hx : value? x = some p) (hy : value? y = some q) : x < y ↔ p < q := by
  obtain ⟨o, hcompare, horders⟩ := compare_orders hx hy
  have hlt : x < y ↔ x.toModel.unpack.lt y.toModel.unpack = true := decide_eq_true_iff
  rw [hlt, UnpackedFloat.lt, hcompare]
  cases o <;> simp_all [Orders, le_of_lt]

theorem le_iff (hx : value? x = some p) (hy : value? y = some q) : x ≤ y ↔ p ≤ q := by
  obtain ⟨o, hcompare, horders⟩ := compare_orders hx hy
  have hle : x ≤ y ↔ x.toModel.unpack.le y.toModel.unpack = true := decide_eq_true_iff
  rw [hle, UnpackedFloat.le, hcompare]
  cases o <;> simp_all [Orders, le_of_lt]

section Operands

variable {z : Float} {r : Rat}

/-- An operation that rounds has a finite result only for finite operands. -/
theorem operation_inv {exact : Rat → Rat → Rat}
    (hz : value? z = (value? x).bind fun p => (value? y).bind fun q => nearestValue? (exact p q))
    (h : value? z = some r) :
    ∃ p q, value? x = some p ∧ value? y = some q ∧ r = rounded (exact p q) := by
  obtain ⟨p, hp, hrest⟩ := Option.bind_eq_some_iff.mp (hz.symm.trans h)
  obtain ⟨q, hq, hresult⟩ := Option.bind_eq_some_iff.mp hrest
  exact ⟨p, q, hp, hq, eq_of_nearestValue? hresult⟩

theorem add_inv (h : value? (x + y) = some r) :
    ∃ p q, value? x = some p ∧ value? y = some q ∧ r = rounded (p + q) :=
  operation_inv (value?_add x y) h

theorem sub_inv (h : value? (x - y) = some r) :
    ∃ p q, value? x = some p ∧ value? y = some q ∧ r = rounded (p - q) :=
  operation_inv (value?_sub x y) h

theorem mul_inv (h : value? (x * y) = some r) :
    ∃ p q, value? x = some p ∧ value? y = some q ∧ r = rounded (p * q) :=
  operation_inv (value?_mul x y) h

theorem div_inv (hy : value? y = some q) (hne : q ≠ 0) (h : value? (x / y) = some r) :
    ∃ p, value? x = some p ∧ r = rounded (p / q) := by
  rw [value?_div hy hne] at h
  obtain ⟨p, hp, hresult⟩ := Option.bind_eq_some_iff.mp h
  exact ⟨p, hp, eq_of_nearestValue? hresult⟩

end Operands

/-- Whole numbers that stand in formulas are exact. -/
theorem value?_ofNat_lit (n : Nat) [n.AtLeastTwo] (hn : n ≤ 2 ^ 53) :
    value? (OfNat.ofNat n : Float) = some (n : Rat) :=
  (value?_ofNat n).trans (nearestValue?_natCast hn)

theorem value?_zero_lit : value? 0 = some 0 :=
  (value?_ofNat 0).trans (by simpa using nearestValue?_natCast (n := 0) (by decide))

theorem value?_one_lit : value? 1 = some 1 :=
  (value?_ofNat 1).trans (by simpa using nearestValue?_natCast (n := 1) (by decide))

theorem value?_notANumber : value? notANumber = none := value?_of_isNaN rfl

theorem value?_infinity : value? infinity = none := if_neg (by decide)

theorem representable_zpow {k : Int} (hk : -1074 ≤ k) : Representable (2 ^ k) :=
  ⟨1, k, by decide, hk, by simp⟩

theorem representable_half {n : Nat} (hn : n ≤ 2 ^ 53) : Representable (n / 2) :=
  ⟨n, -1, by rw [Nat.abs_cast]; omega, by decide, by simp [div_eq_mul_inv]⟩

theorem representable_two : Representable 2 := by
  simpa using representable_intCast (n := 2) (by decide)

theorem nearestValue?_of_representable (h : Representable q) (hsize : |q| < 2 ^ (1024 : Int)) :
    nearestValue? q = some q := by
  rw [nearestValue?, rounded_eq_self h, if_pos hsize]

theorem exists_nearest {r : Rat} (h : nearestValue? q = some r) :
    ∃ x, nearest? q = some x ∧ value? x = some r :=
  Option.bind_eq_some_iff.mp ((nearest?_bind_value? q).trans h)

/-- The nearest number, zero if there is none. -/
theorem value?_nearest_getD {r : Rat} (h : nearestValue? q = some r) :
    value? ((nearest? q).getD 0) = some r := by
  obtain ⟨x, hx, hvalue⟩ := exists_nearest h
  rw [hx, Option.getD_some, hvalue]

theorem of_value?_nearest_getD {r : Rat} (h : value? ((nearest? q).getD 0) = some r) :
    r = rounded q ∨ r = 0 := by
  cases hnearest : nearest? q with
  | some x =>
    rw [hnearest, Option.getD_some, value?_nearest hnearest] at h
    exact .inl (Option.some.inj h).symm
  | none =>
    rw [hnearest, Option.getD_none, value?_zero_lit] at h
    exact .inr (Option.some.inj h).symm

/-- Rounding moves small numbers by little. -/
theorem rounded_near (h : |q| ≤ 4) : q - 1 / 2 ^ 50 ≤ rounded q ∧ rounded q ≤ q + 1 / 2 ^ 50 := by
  obtain ⟨hlow, hhigh⟩ := rounded_bounds h
  constructor
  · norm_num at hlow ⊢
    linarith
  · norm_num at hhigh ⊢
    linarith

section Bounds

variable {low high : Rat}

/-- Bounds of the format hold for the rounded number. -/
theorem rounded_mem (hlow : Representable low) (hhigh : Representable high) (h : low ≤ q ∧ q ≤ high) :
    low ≤ rounded q ∧ rounded q ≤ high :=
  ⟨le_rounded hlow h.1, rounded_le hhigh h.2⟩

/-- Between bounds of the format there is a nearest number. -/
theorem nearestValue?_mem (hlow : Representable low) (hhigh : Representable high) (hnonneg : 0 ≤ low)
    (hlarge : high < 2 ^ (1024 : Int)) (h : low ≤ q ∧ q ≤ high) :
    nearestValue? q = some (rounded q) ∧ low ≤ rounded q ∧ rounded q ≤ high := by
  obtain ⟨hleast, hmost⟩ := rounded_mem hlow hhigh h
  exact ⟨nearestValue?_of_le (hnonneg.trans hleast) hmost hlarge, hleast, hmost⟩

/-- A quotient below one. -/
theorem value?_quotient {y : Float} (hx : value? x = some p) (hy : value? y = some q) (hp : 0 ≤ p)
    (hq : 0 < q) (hle : p ≤ q) : value? (x / y) = some (rounded (p / q)) := by
  have hone : (1 : Rat) < 2 ^ (1024 : Int) :=
    (zpow_zero (2 : Rat)).symm.trans_lt (zpow_two_lt_iff.mpr (by decide))
  rw [value?_div hy hq.ne', hx, Option.bind_some]
  exact (nearestValue?_mem representable_zero representable_one le_rfl hone
    ⟨div_nonneg hp hq.le, (div_le_one hq).mpr hle⟩).1

/-- If `x` denotes a number, it lies between the bounds. -/
def Between (low high : Rat) (x : Float) : Prop := ∀ q, value? x = some q → low ≤ q ∧ q ≤ high

theorem Between.weaken {low' high' : Rat} (h : Between low high x) (hlow : low' ≤ low)
    (hhigh : high ≤ high') : Between low' high' x :=
  fun q hq => ⟨hlow.trans (h q hq).1, (h q hq).2.trans hhigh⟩

/-- A part of one. -/
abbrev IsPart : Float → Prop := Between 0 1

theorem between_rounded (hlow : Representable low) (hhigh : Representable high)
    (h : ∀ r, value? x = some r → ∃ q, r = rounded q ∧ low ≤ q ∧ q ≤ high) : Between low high x := by
  intro r hr
  obtain ⟨q, rfl, hq⟩ := h r hr
  exact rounded_mem hlow hhigh hq

theorem IsPart.of_rounded (h : ∀ r, value? x = some r → ∃ q, r = rounded q ∧ 0 ≤ q ∧ q ≤ 1) :
    IsPart x :=
  between_rounded representable_zero representable_one h

theorem IsPart.mul (hx : IsPart x) (hy : IsPart y) : IsPart (x * y) := by
  refine .of_rounded fun r hr => ?_
  obtain ⟨p, q, hp, hq, rfl⟩ := mul_inv hr
  obtain ⟨hp0, hp1⟩ := hx p hp
  obtain ⟨hq0, hq1⟩ := hy q hq
  exact ⟨_, rfl, mul_nonneg hp0 hq0, mul_le_one₀ hp1 hq0 hq1⟩

theorem IsPart.rest (hx : IsPart x) : IsPart (1 - x) := by
  refine .of_rounded fun r hr => ?_
  obtain ⟨p, q, hp, hq, rfl⟩ := sub_inv hr
  obtain rfl := Option.some.inj (value?_one_lit.symm.trans hp)
  obtain ⟨hq0, hq1⟩ := hx q hq
  exact ⟨_, rfl, by linarith, by linarith⟩

end Bounds

end MapLayers.Binary64
