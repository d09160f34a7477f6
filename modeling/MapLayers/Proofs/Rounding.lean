import Mathlib.Algebra.Order.Field.Basic
import Mathlib.Algebra.Order.Floor.Ring
import Mathlib.Data.Rat.Floor
import Mathlib.Tactic.FieldSimp
import Mathlib.Tactic.Linarith
import Mathlib.Tactic.NormNum
import Mathlib.Tactic.Positivity
import Mathlib.Tactic.Ring
import MapLayers.Numeric.Binary64

/-!
# Rounding to binary floating point

Every operation on floating-point numbers gives its exact result rounded to the nearest number that has a
significand of 53 bits. That is a function of the rationals: it keeps the order, leaves representable
numbers alone, and moves a number by half a unit of its last place at most.
-/

namespace MapLayers

/-- What decides between the two neighbours of a number. -/
theorem roundHalfEven_cases (q : Rat) :
    (roundHalfEven q = q.floor ∧ q ≤ q.floor + 1 / 2 ∧
      (q = q.floor + 1 / 2 → q.floor % 2 = 0)) ∨
    (roundHalfEven q = q.floor + 1 ∧ q.floor + 1 / 2 ≤ q ∧
      (q = q.floor + 1 / 2 → (q.floor + 1) % 2 = 0)) := by
  unfold roundHalfEven
  dsimp only
  split_ifs with hless hmore heven
  · exact .inl ⟨rfl, by linarith, fun h => by linarith⟩
  · exact .inr ⟨rfl, by linarith, fun h => by linarith⟩
  · exact .inl ⟨rfl, by linarith, fun _ => heven⟩
  · exact .inr ⟨rfl, by linarith, fun _ => by omega⟩

theorem abs_sub_roundHalfEven (q : Rat) : |q - roundHalfEven q| ≤ 1 / 2 := by
  have hlow := Rat.floor_le q
  have hhigh := Rat.lt_floor_add_one q
  push_cast at hhigh
  rcases roundHalfEven_cases q with ⟨h, hmiddle, -⟩ | ⟨h, hmiddle, -⟩ <;>
  · rw [h, abs_le]
    push_cast
    constructor <;> linarith

theorem even_roundHalfEven {q : Rat} (h : |q - roundHalfEven q| = 1 / 2) :
    roundHalfEven q % 2 = 0 := by
  have hlow := Rat.floor_le q
  have hhigh := Rat.lt_floor_add_one q
  push_cast at hhigh
  rcases roundHalfEven_cases q with ⟨hround, hmiddle, heven⟩ | ⟨hround, hmiddle, heven⟩ <;>
    rw [hround] at h ⊢ <;> push_cast at h
  · rw [abs_of_nonneg (by linarith)] at h
    exact heven (by linarith)
  · rw [abs_of_nonpos (by linarith)] at h
    exact heven (by linarith)

theorem eq_of_abs_sub_le_half {q : Rat} {m n : Int} (hm : |q - m| ≤ 1 / 2)
    (hn : |q - n| ≤ 1 / 2) (hevenm : |q - m| = 1 / 2 → m % 2 = 0)
    (hevenn : |q - n| = 1 / 2 → n % 2 = 0) : m = n := by
  rw [abs_le] at hm hn
  have habove : m ≤ n + 1 := by
    have : (m : Rat) ≤ n + 1 := by linarith [hm.1, hn.2]
    exact_mod_cast this
  have hbelow : n ≤ m + 1 := by
    have : (n : Rat) ≤ m + 1 := by linarith [hm.2, hn.1]
    exact_mod_cast this
  -- Neighbours can both be that near only from the middle between them, and one of them is odd.
  have hmiddle {a b : Int} (hnext : a = b + 1) (ha : -(1 / 2) ≤ q - a) (hb : q - b ≤ 1 / 2)
      (hevena : |q - a| = 1 / 2 → a % 2 = 0) (hevenb : |q - b| = 1 / 2 → b % 2 = 0) : False := by
    subst hnext
    push_cast at ha
    have ha' := hevena (by push_cast; rw [abs_of_nonpos (by linarith)]; linarith)
    have hb' := hevenb (by rw [abs_of_nonneg (by linarith)]; linarith)
    omega
  rcases (show m = n ∨ m = n + 1 ∨ n = m + 1 by omega) with h | h | h
  · exact h
  · exact (hmiddle h hm.1 hn.2 hevenm hevenn).elim
  · exact (hmiddle h hn.1 hm.2 hevenn hevenm).elim

theorem eq_roundHalfEven {q : Rat} {n : Int} (h : |q - n| ≤ 1 / 2)
    (heven : |q - n| = 1 / 2 → n % 2 = 0) : n = roundHalfEven q :=
  eq_of_abs_sub_le_half h (abs_sub_roundHalfEven q) heven even_roundHalfEven

theorem roundHalfEven_intCast (n : Int) : roundHalfEven n = n :=
  (eq_roundHalfEven (by norm_num) (by norm_num)).symm

theorem roundHalfEven_eq_of_lt {q : Rat} {n : Int} (h : |q - n| < 1 / 2) : roundHalfEven q = n :=
  (eq_roundHalfEven h.le fun hhalf => absurd hhalf h.ne).symm

theorem roundHalfEven_add_half (n : Int) : roundHalfEven (n + 1 / 2) = n + n % 2 := by
  symm
  rcases Int.emod_two_eq_zero_or_one n with heven | hodd
  · rw [heven, add_zero]
    exact eq_roundHalfEven (by rw [add_sub_cancel_left]; norm_num) fun _ => heven
  · rw [hodd]
    refine eq_roundHalfEven ?_ fun _ => by omega
    push_cast
    rw [abs_le]
    constructor <;> linarith

theorem roundHalfEven_neg (q : Rat) : roundHalfEven (-q) = -roundHalfEven q := by
  have hflip : |-q - ((-roundHalfEven q : Int) : Rat)| = |q - roundHalfEven q| := by
    rw [← abs_neg]
    congr 1
    push_cast
    ring
  refine (eq_roundHalfEven (hflip ▸ abs_sub_roundHalfEven q) fun h => ?_).symm
  have := even_roundHalfEven (hflip ▸ h)
  omega

theorem roundHalfEven_nearest (q : Rat) (n : Int) : |q - roundHalfEven q| ≤ |q - n| := by
  by_cases hn : n = roundHalfEven q
  · rw [hn]
  by_contra hnearer
  have hhalf := abs_sub_roundHalfEven q
  exact hn (eq_roundHalfEven (by linarith) fun h => by linarith)

/-- Of two results the wrong way round, both would come from the middle between them. -/
theorem roundHalfEven_mono {p q : Rat} (h : p ≤ q) : roundHalfEven p ≤ roundHalfEven q := by
  by_contra hwrong
  have hp := (abs_le.mp (abs_sub_roundHalfEven p)).1
  have hq := (abs_le.mp (abs_sub_roundHalfEven q)).2
  have hstep : (roundHalfEven q : Rat) + 1 ≤ roundHalfEven p := by
    exact_mod_cast not_le.mp hwrong
  obtain rfl : p = q := by linarith
  exact hwrong le_rfl

/-- From an even integer it is half a step to the next one at least. -/
theorem roundHalfEven_le_of_even {q : Rat} {n : Int} (heven : n % 2 = 0) (h : q ≤ n + 1 / 2) :
    roundHalfEven q ≤ n := by
  have hhalf := abs_sub_roundHalfEven q
  rw [abs_le] at hhalf
  have hnext : roundHalfEven q ≤ n + 1 := by
    have : (roundHalfEven q : Rat) ≤ n + 1 := by linarith [hhalf.1]
    exact_mod_cast this
  rcases hnext.lt_or_eq with hless | hequal
  · omega
  · have hhigh := hhalf.1
    rw [hequal] at hhigh
    push_cast at hhigh
    have := even_roundHalfEven (q := q) (by
      rw [hequal, abs_of_nonpos (by push_cast; linarith)]
      push_cast
      linarith)
    omega

theorem zpow_two_pos (e : Int) : (0 : Rat) < 2 ^ e := zpow_pos (by norm_num) e

theorem zpow_two_add (d e : Int) : (2 : Rat) ^ (d + e) = 2 ^ d * 2 ^ e :=
  zpow_add₀ (by norm_num) d e

theorem zpow_two_le {d e : Int} (h : d ≤ e) : (2 : Rat) ^ d ≤ 2 ^ e :=
  zpow_le_zpow_right₀ (by norm_num) h

theorem zpow_two_lt_iff {d e : Int} : (2 : Rat) ^ d < 2 ^ e ↔ d < e :=
  zpow_lt_zpow_iff_right₀ (by norm_num)

theorem zpow_log2_le {n : Nat} (hn : n ≠ 0) :
    (2 : Rat) ^ (n.log2 : Int) ≤ n ∧ (n : Rat) < 2 ^ ((n.log2 : Int) + 1) := by
  constructor
  · rw [zpow_natCast]
    exact_mod_cast Nat.log2_self_le hn
  · rw [← Int.natCast_succ, zpow_natCast]
    exact_mod_cast Nat.lt_log2_self

/-- A quotient of numbers between neighbouring powers of a base. -/
theorem quotient_bounds {b q : Rat} (hb : 0 < b) {c d : Int} (hq : 0 < q)
    (hnum : b ^ c ≤ q.num.toNat ∧ q.num.toNat < b ^ (c + 1))
    (hden : b ^ d ≤ q.den ∧ q.den < b ^ (d + 1)) :
    b ^ (c - d - 1) < q ∧ q < b ^ (c - d + 1) := by
  have hpower (e : Int) : 0 < b ^ e := zpow_pos hb e
  have hadd (e f : Int) : b ^ e * b ^ f = b ^ (e + f) := (zpow_add₀ hb.ne' e f).symm
  have hpos : (0 : Rat) < q.den := by exact_mod_cast q.den_pos
  have hvalue : q * q.den = (q.num.toNat : Rat) := by
    rw [Rat.mul_den_eq_num, ← Int.cast_natCast, Int.toNat_of_nonneg (Rat.num_pos.mpr hq).le]
  constructor
  · refine lt_of_mul_lt_mul_right ?_ hpos.le
    calc b ^ (c - d - 1) * q.den < b ^ (c - d - 1) * b ^ (d + 1) :=
          mul_lt_mul_of_pos_left hden.2 (hpower _)
      _ = b ^ c := by rw [hadd]; congr 1; ring
      _ ≤ q * q.den := hvalue ▸ hnum.1
  · refine lt_of_mul_lt_mul_right ?_ hpos.le
    calc q * q.den < b ^ (c + 1) := hvalue ▸ hnum.2
      _ = b ^ (c - d + 1) * b ^ d := by rw [hadd]; congr 1; ring
      _ ≤ b ^ (c - d + 1) * q.den := mul_le_mul_of_nonneg_left hden.1 (hpower _).le

theorem toNat_num_ne_zero {q : Rat} (hq : 0 < q) : q.num.toNat ≠ 0 := by
  have := Rat.num_pos.mpr hq
  omega

theorem floorLog2_spec {q : Rat} (hq : 0 < q) :
    2 ^ floorLog2 q ≤ q ∧ q < 2 ^ (floorLog2 q + 1) := by
  obtain ⟨hlow, hhigh⟩ := quotient_bounds two_pos hq (zpow_log2_le (toNat_num_ne_zero hq))
    (zpow_log2_le q.den_nz)
  unfold floorLog2
  dsimp only
  split_ifs with hle
  · exact ⟨hle, hhigh⟩
  · rw [sub_add_cancel]
    exact ⟨hlow.le, not_le.mp hle⟩

/-- The leading bit of a number is the only power of two that near below it. -/
theorem floorLog2_eq {q : Rat} {e : Int} (hlow : 2 ^ e ≤ q) (hhigh : q < 2 ^ (e + 1)) :
    floorLog2 q = e := by
  obtain ⟨hle, hlt⟩ := floorLog2_spec ((zpow_two_pos e).trans_le hlow)
  have habove : e < floorLog2 q + 1 := zpow_two_lt_iff.mp (hlow.trans_lt hlt)
  have hbelow : floorLog2 q < e + 1 := zpow_two_lt_iff.mp (hle.trans_lt hhigh)
  omega

theorem floorLog2_mono {p q : Rat} (hp : 0 < p) (h : p ≤ q) : floorLog2 p ≤ floorLog2 q := by
  have := (floorLog2_spec hp).1.trans_lt (h.trans_lt (floorLog2_spec (hp.trans_le h)).2)
  have := zpow_two_lt_iff.mp this
  omega

namespace Binary64

/-- The exponent of the last place of numbers of the size of `q`. -/
def unitExponent (q : Rat) : Int := max (floorLog2 |q| - 52) (-1074)

/-- The last place of numbers of the size of `q`. -/
def unit (q : Rat) : Rat := 2 ^ unitExponent q

/-- `q` in the nearest whole number of units. -/
def rounded (q : Rat) : Rat := roundHalfEven (q / unit q) * unit q

/-- The numbers of the format, if its exponents had no upper bound. -/
def Representable (q : Rat) : Prop :=
  ∃ m e : Int, |m| ≤ 2 ^ 53 ∧ -1074 ≤ e ∧ q = m * 2 ^ e

variable {p q : Rat}

theorem unit_pos (q : Rat) : 0 < unit q := zpow_two_pos _

theorem unit_neg (q : Rat) : unit (-q) = unit q := by
  unfold unit unitExponent
  rw [abs_neg]

theorem unit_mono (hp : 0 < |p|) (h : |p| ≤ |q|) : unit p ≤ unit q :=
  zpow_two_le (max_le_max (by have := floorLog2_mono hp h; omega) le_rfl)

theorem abs_lt_units (q : Rat) : |q| < 2 ^ 53 * unit q := by
  rcases eq_or_ne q 0 with rfl | hq
  · simpa using unit_pos 0
  · calc |q| < 2 ^ (floorLog2 |q| + 1) := (floorLog2_spec (abs_pos.mpr hq)).2
      _ ≤ 2 ^ (53 + unitExponent q) := zpow_two_le (by unfold unitExponent; omega)
      _ = 2 ^ 53 * unit q := by rw [zpow_two_add]; norm_num [unit]

/-- A number is at least `2 ^ 52` of its units, unless these are the smallest there are. -/
theorem units_le_abs (hq : q ≠ 0) (h : -1074 < unitExponent q) : 2 ^ 52 * unit q ≤ |q| := by
  have hexponent : unitExponent q = floorLog2 |q| - 52 := by
    unfold unitExponent at h ⊢
    omega
  calc 2 ^ 52 * unit q = 2 ^ (52 + unitExponent q) := by rw [zpow_two_add]; norm_num [unit]
    _ = 2 ^ floorLog2 |q| := by rw [hexponent]; congr 1; ring
    _ ≤ |q| := (floorLog2_spec (abs_pos.mpr hq)).1

/-- Units are small beside the number, or smaller than any other. -/
theorem unit_le (hq : q ≠ 0) : unit q ≤ |q| / 2 ^ 52 + 2 ^ (-1074 : Int) := by
  rcases le_or_gt (unitExponent q) (-1074) with h | h
  · have hunit : unit q ≤ 2 ^ (-1074 : Int) := zpow_two_le h
    have : 0 ≤ |q| / 2 ^ 52 := by positivity
    linarith
  · have hunit := units_le_abs hq h
    have hsmallest := zpow_two_pos (-1074)
    rw [mul_comm, ← le_div_iff₀ (by norm_num)] at hunit
    linarith

theorem abs_sub_rounded (q : Rat) : |q - rounded q| ≤ unit q / 2 := by
  have hunit := unit_pos q
  have hscaled : q - rounded q = (q / unit q - roundHalfEven (q / unit q)) * unit q := by
    unfold rounded
    field_simp
  rw [hscaled, abs_mul, abs_of_pos hunit]
  have := mul_le_mul_of_nonneg_right (abs_sub_roundHalfEven (q / unit q)) hunit.le
  linarith

theorem rounded_zero : rounded 0 = 0 := by
  unfold rounded
  rw [zero_div, ← Int.cast_zero, roundHalfEven_intCast, Int.cast_zero, zero_mul]

theorem rounded_neg (q : Rat) : rounded (-q) = -rounded q := by
  unfold rounded
  rw [unit_neg, neg_div, roundHalfEven_neg]
  push_cast
  ring

/-- A number rounds to `2 ^ 53` of its units at most. -/
theorem abs_roundHalfEven_units (q : Rat) : |roundHalfEven (q / unit q)| ≤ 2 ^ 53 := by
  have hsize : |q / unit q| < 2 ^ 53 := by
    rw [abs_div, abs_of_pos (unit_pos q), div_lt_iff₀ (unit_pos q)]
    exact abs_lt_units q
  have hhalf := abs_sub_roundHalfEven (q / unit q)
  rw [abs_lt] at hsize
  rw [abs_le] at hhalf ⊢
  have hlow : (-2 ^ 53 - 1 : Rat) < roundHalfEven (q / unit q) := by linarith [hsize.1, hhalf.2]
  have hhigh : (roundHalfEven (q / unit q) : Rat) < 2 ^ 53 + 1 := by linarith [hsize.2, hhalf.1]
  have hlow' : -2 ^ 53 - 1 < roundHalfEven (q / unit q) := by exact_mod_cast hlow
  have hhigh' : roundHalfEven (q / unit q) < 2 ^ 53 + 1 := by exact_mod_cast hhigh
  omega

/-- It rounds to `2 ^ 52` of them at least, unless they are the smallest there are. -/
theorem le_roundHalfEven_units (hq : 0 < q) (h : -1074 < unitExponent q) :
    2 ^ 52 ≤ roundHalfEven (q / unit q) := by
  have hsize := units_le_abs hq.ne' h
  rw [abs_of_pos hq, ← le_div_iff₀ (unit_pos q)] at hsize
  have hhalf := (abs_le.mp (abs_sub_roundHalfEven (q / unit q))).2
  have hlow : (2 ^ 52 - 1 : Rat) < roundHalfEven (q / unit q) := by linarith
  have hlow' : 2 ^ 52 - 1 < roundHalfEven (q / unit q) := by exact_mod_cast hlow
  omega

theorem representable_rounded (q : Rat) : Representable (rounded q) :=
  ⟨_, unitExponent q, abs_roundHalfEven_units q, le_max_right _ _, rfl⟩

theorem rounded_nearest_multiple (q : Rat) (n : Int) : |q - rounded q| ≤ |q - n * unit q| := by
  have hunit := unit_pos q
  have hscaled (m : Int) : |q - m * unit q| = |q / unit q - m| * unit q := by
    rw [← abs_of_pos hunit, ← abs_mul, abs_of_pos hunit]
    congr 1
    field_simp
  unfold rounded
  rw [hscaled, hscaled]
  exact mul_le_mul_of_nonneg_right (roundHalfEven_nearest _ n) hunit.le

/-- The least number with the units of `q` is a whole number of them, on its side of zero. -/
theorem exists_multiple_toward_zero (h : 2 ^ 52 * unit q ≤ |q|) :
    ∃ n : Int, |q - n * unit q| = |q| - 2 ^ 52 * unit q := by
  rcases le_or_gt 0 q with hpos | hneg
  · rw [abs_of_nonneg hpos] at h ⊢
    refine ⟨2 ^ 52, ?_⟩
    push_cast
    rw [abs_of_nonneg (by linarith)]
    ring
  · rw [abs_of_neg hneg] at h ⊢
    refine ⟨-2 ^ 52, ?_⟩
    push_cast
    rw [abs_of_nonpos (by linarith)]
    ring

/-- No number of the format is nearer. -/
theorem rounded_nearest (hp : Representable p) : |q - rounded q| ≤ |q - p| := by
  obtain ⟨m, e, hm, he, rfl⟩ := hp
  rcases le_or_gt (unitExponent q) e with hcoarse | hfine
  · have hmultiple : (m : Rat) * 2 ^ e = ((m * 2 ^ (e - unitExponent q).toNat : Int) : Rat) *
        unit q := by
      push_cast
      rw [mul_assoc, unit, ← zpow_natCast, ← zpow_two_add, Int.toNat_of_nonneg (by omega),
        sub_add_cancel]
    rw [hmultiple]
    exact rounded_nearest_multiple q _
  -- A number with smaller units lies on the other side of the least number with these units.
  · rcases eq_or_ne q 0 with rfl | hq
    · rw [rounded_zero, sub_zero, abs_zero]
      exact abs_nonneg _
    have hsmall : |(m : Rat) * 2 ^ e| ≤ 2 ^ 52 * unit q := by
      rw [abs_mul, abs_of_pos (zpow_two_pos e)]
      calc |(m : Rat)| * 2 ^ e ≤ 2 ^ 53 * 2 ^ e :=
            mul_le_mul_of_nonneg_right (by exact_mod_cast hm) (zpow_two_pos e).le
        _ = 2 ^ (53 + e) := by rw [zpow_two_add]; norm_num
        _ ≤ 2 ^ (52 + unitExponent q) := zpow_two_le (by omega)
        _ = 2 ^ 52 * unit q := by rw [zpow_two_add]; norm_num [unit]
    obtain ⟨n, hn⟩ := exists_multiple_toward_zero (units_le_abs hq (by omega))
    calc |q - rounded q| ≤ |q - n * unit q| := rounded_nearest_multiple q n
      _ = |q| - 2 ^ 52 * unit q := hn
      _ ≤ |q| - |(m : Rat) * 2 ^ e| := by linarith
      _ ≤ |q - m * 2 ^ e| := abs_sub_abs_le_abs_sub _ _

theorem representable_intCast {n : Int} (hn : |n| ≤ 2 ^ 53) : Representable n :=
  ⟨n, 0, hn, by decide, by simp⟩

theorem representable_zero : Representable 0 := by
  simpa using representable_intCast (n := 0) (by decide)

theorem representable_one : Representable 1 := by
  simpa using representable_intCast (n := 1) (by decide)

theorem rounded_eq_self (hq : Representable q) : rounded q = q := by
  have h := rounded_nearest (q := q) hq
  rw [sub_self, abs_zero, abs_nonpos_iff] at h
  linarith

/-- Rounding keeps the order: of two results the wrong way round, each would be nearer to the other's
number. -/
theorem rounded_mono (h : p ≤ q) : rounded p ≤ rounded q := by
  rcases h.eq_or_lt with rfl | hless
  · exact le_rfl
  by_contra hwrong
  have hp := sq_le_sq.mpr (rounded_nearest (q := p) (representable_rounded q))
  have hq := sq_le_sq.mpr (rounded_nearest (q := q) (representable_rounded p))
  have hgap : 0 < rounded p - rounded q := by linarith
  have hmiddle : rounded p + rounded q ≤ 2 * p := by nlinarith
  have hmiddle' : 2 * q ≤ rounded p + rounded q := by nlinarith
  linarith

theorem rounded_le (hq : Representable q) (h : p ≤ q) : rounded p ≤ q :=
  rounded_eq_self hq ▸ rounded_mono h

theorem le_rounded (hp : Representable p) (h : p ≤ q) : p ≤ rounded q :=
  rounded_eq_self hp ▸ rounded_mono h

/-- The numbers of the format are whole numbers of its smallest one. -/
theorem Representable.multiple (hq : Representable q) : ∃ n : Int, q = n * 2 ^ (-1074 : Int) := by
  obtain ⟨m, e, -, he, rfl⟩ := hq
  refine ⟨m * 2 ^ (e + 1074).toNat, ?_⟩
  have hsplit : (2 : Rat) ^ e = 2 ^ (e + 1074).toNat * 2 ^ (-1074 : Int) := by
    rw [← zpow_natCast, ← zpow_two_add]
    congr 1
    omega
  rw [hsplit, ← mul_assoc, Int.cast_mul, Int.cast_pow, Int.cast_ofNat]

theorem representable_smallest : Representable (2 ^ (-1074 : Int)) :=
  ⟨1, -1074, by decide, by decide, by simp⟩

/-- The difference of two numbers of the format does not vanish in rounding. -/
theorem rounded_sub_pos (hp : Representable p) (hq : Representable q) (h : p < q) :
    0 < rounded (q - p) := by
  obtain ⟨m, rfl⟩ := hp.multiple
  obtain ⟨n, rfl⟩ := hq.multiple
  have hsmallest := zpow_two_pos (-1074)
  have hless : m < n := by exact_mod_cast (mul_lt_mul_iff_left₀ hsmallest).mp h
  have hstep : (1 : Rat) ≤ n - m := by
    have : (m + 1 : Rat) ≤ n := by exact_mod_cast Int.add_one_le_of_lt hless
    linarith
  refine hsmallest.trans_le (le_rounded representable_smallest ?_)
  rw [← sub_mul]
  exact le_mul_of_one_le_left hsmallest.le hstep

theorem eq_of_rounded_sub (hp : Representable p) (hq : Representable q)
    (h : rounded (q - p) = 0) : p = q := by
  rcases lt_trichotomy p q with hless | heq | hless
  · exact absurd h (rounded_sub_pos hp hq hless).ne'
  · exact heq
  · have hpos := rounded_sub_pos hq hp hless
    rw [← neg_sub, rounded_neg, h, neg_zero] at hpos
    exact absurd hpos (lt_irrefl 0)

theorem rounded_le_of_even {n : Int} (heven : n % 2 = 0) (h : q ≤ n * unit q + unit q / 2) :
    rounded q ≤ n * unit q := by
  have hunit := unit_pos q
  have hle : roundHalfEven (q / unit q) ≤ n := by
    refine roundHalfEven_le_of_even heven ?_
    rw [div_le_iff₀ hunit]
    linarith
  exact mul_le_mul_of_nonneg_right (by exact_mod_cast hle) hunit.le

theorem abs_sub_rounded_le (q : Rat) : |q - rounded q| ≤ |q| / 2 ^ 53 + 2 ^ (-1075 : Int) := by
  rcases eq_or_ne q 0 with rfl | hq
  · rw [rounded_zero, sub_zero, abs_zero, zero_div, zero_add]
    exact (zpow_two_pos _).le
  · have hsmallest : (2 : Rat) ^ (-1074 : Int) = 2 * 2 ^ (-1075 : Int) := by
      rw [show (-1074 : Int) = 1 + -1075 by norm_num, zpow_two_add, zpow_one]
    have hhalf := abs_sub_rounded q
    have hunit := unit_le hq
    rw [hsmallest] at hunit
    linarith

end Binary64

end MapLayers
