import MapLayers.Proofs.StoredFloats

/-!
# Shortest decimals

The rationals that round to one number lie around it, half a unit to either side, or a quarter below a power of
two. Of two neighbouring decimals with seventeen digits one is that near, so a search for the fewest digits
always finds a decimal, and what it finds is read back as the number that has been written.
-/

namespace MapLayers

variable {q : Rat}

theorem zpow_ten_pos (e : Int) : (0 : Rat) < 10 ^ e := zpow_pos (by norm_num) e

theorem zpow_ten_add (d e : Int) : (10 : Rat) ^ (d + e) = 10 ^ d * 10 ^ e :=
  zpow_add₀ (by norm_num) d e

theorem digitCount_pos (n : Nat) : 0 < digitCount n := Nat.length_toDigits_pos

theorem lt_pow_digitCount (n : Nat) : n < 10 ^ digitCount n :=
  (Nat.length_toDigits_le_iff (by decide) (digitCount_pos n)).mp le_rfl

theorem pow_digitCount_le {n : Nat} (hn : n ≠ 0) : 10 ^ (digitCount n - 1) ≤ n := by
  have hpos := digitCount_pos n
  by_cases hone : digitCount n - 1 = 0
  · rw [hone, pow_zero]
    exact Nat.one_le_iff_ne_zero.mpr hn
  · rw [← Nat.not_lt, ← Nat.length_toDigits_le_iff (by decide) (Nat.pos_of_ne_zero hone)]
    change ¬digitCount n ≤ digitCount n - 1
    omega

theorem zpow_digitCount_le {n : Nat} (hn : n ≠ 0) :
    (10 : Rat) ^ ((digitCount n : Int) - 1) ≤ n ∧ (n : Rat) < 10 ^ ((digitCount n : Int) - 1 + 1) := by
  have hpos := digitCount_pos n
  constructor
  · rw [show (digitCount n : Int) - 1 = (digitCount n - 1 : Nat) by omega, zpow_natCast]
    exact_mod_cast pow_digitCount_le hn
  · rw [sub_add_cancel, zpow_natCast]
    exact_mod_cast lt_pow_digitCount n

theorem floorLog10_spec (hq : 0 < q) : 10 ^ floorLog10 q ≤ q ∧ q < 10 ^ (floorLog10 q + 1) := by
  obtain ⟨hlow, hhigh⟩ := quotient_bounds (by norm_num) hq (zpow_digitCount_le (toNat_num_ne_zero hq))
    (zpow_digitCount_le q.den_nz)
  rw [sub_sub_sub_cancel_right] at hlow hhigh
  unfold floorLog10
  dsimp only
  split_ifs with hle
  · exact ⟨hle, hhigh⟩
  · rw [sub_add_cancel]
    exact ⟨hlow.le, not_le.mp hle⟩

namespace Binary64

variable {x : Float}

theorem ten_zpow_lt (h : q < 10 ^ (-330 : Int)) : q < 2 ^ (-1090 : Int) := by
  have hten : (10 : Rat) ^ (-330 : Int) = (10 ^ (-33 : Int)) ^ 10 := by
    rw [← zpow_natCast, ← zpow_mul]
    norm_num
  have htwo : (2 : Rat) ^ (-1090 : Int) = (2 ^ (-109 : Int)) ^ 10 := by
    rw [← zpow_natCast, ← zpow_mul]
    norm_num
  rw [hten] at h
  rw [htwo]
  exact h.trans_le (pow_le_pow_left₀ (by positivity) (by norm_num) 10)

theorem le_ten_zpow (h : 10 ^ (320 : Int) ≤ q) : 2 ^ (1024 : Int) ≤ q := by
  have hten : (10 : Rat) ^ (320 : Int) = (10 ^ (10 : Int)) ^ 32 := by
    rw [← zpow_natCast, ← zpow_mul]
    norm_num
  have htwo : (2 : Rat) ^ (1024 : Int) = (2 ^ (32 : Int)) ^ 32 := by
    rw [← zpow_natCast, ← zpow_mul]
    norm_num
  rw [hten] at h
  rw [htwo]
  exact (pow_le_pow_left₀ (by positivity) (by norm_num) 32).trans h

/-- What rounds to a positive number is neither too small nor too large to be read. -/
theorem zpow_ten_bounds (hfinite : isFinite x = true) (hsign : signBit x = false)
    (hpos : 0 < magnitude x) (hq : 0 < q) (hrounds : rounded q = magnitude x) :
    10 ^ (-330 : Int) ≤ q ∧ q < 10 ^ (320 : Int) := by
  constructor
  · by_contra hsmall
    have htiny := ten_zpow_lt (not_le.mp hsmall)
    have hleast := le_magnitude hpos
    have hmoved := (abs_le.mp (abs_sub_rounded_le q)).1
    have hhalf : (2 : Rat) ^ (-1075 : Int) = 2 ^ 15 * 2 ^ (-1090 : Int) := by
      rw [show (-1075 : Int) = 15 + -1090 by norm_num, zpow_two_add]
      norm_num
    have hwhole : (2 : Rat) ^ (-1074 : Int) = 2 ^ 16 * 2 ^ (-1090 : Int) := by
      rw [show (-1074 : Int) = 16 + -1090 by norm_num, zpow_two_add]
      norm_num
    rw [abs_of_pos hq, hrounds, hhalf] at hmoved
    rw [hwhole] at hleast
    linarith
  · by_contra hlarge
    have hrange : Representable (2 ^ (1024 : Int)) := representable_zpow (by decide)
    have hover := le_rounded hrange (le_ten_zpow (not_lt.mp hlarge))
    have hvalue : value? x = some (magnitude x) := by
      rw [value?_of_isFinite hfinite, hsign]
      rfl
    rw [hrounds] at hover
    exact absurd (lt_of_value?_eq_some hvalue) (not_lt.mpr hover)

theorem unitExponent_of_mem {e : Int} (he : -1074 ≤ e) (hq : 0 < q)
    (hlow : 2 ^ 52 * 2 ^ e ≤ q ∨ e = -1074) (hhigh : q < 2 ^ 53 * 2 ^ e) : unitExponent q = e := by
  obtain ⟨hle, hlt⟩ := floorLog2_spec hq
  have habove : floorLog2 q < 53 + e := by
    rw [← zpow_two_lt_iff, zpow_two_add]
    exact hle.trans_lt (by exact_mod_cast hhigh)
  unfold unitExponent
  rw [abs_of_pos hq]
  rcases hlow with hlead | rfl
  · have hbelow : 52 + e < floorLog2 q + 1 := by
      rw [← zpow_two_lt_iff, zpow_two_add]
      exact lt_of_le_of_lt (by exact_mod_cast hlead) hlt
    omega
  · omega

/-- A whole number of units is the nearest one of what is half a unit away, or of a tie if it is even. -/
theorem rounded_eq_of_near {m : Nat} {e : Int} (hunit : unitExponent q = e)
    (h : |q - m * 2 ^ e| ≤ 2 ^ e / 2) (heven : |q - m * 2 ^ e| = 2 ^ e / 2 → m % 2 = 0) :
    rounded q = m * 2 ^ e := by
  have hpos := zpow_two_pos e
  have hscaled : |q / 2 ^ e - ((m : Int) : Rat)| = |q - m * 2 ^ e| / 2 ^ e := by
    rw [← abs_of_pos hpos, ← abs_div, abs_of_pos hpos]
    congr 1
    push_cast
    field_simp
  have hnearest : (m : Int) = roundHalfEven (q / 2 ^ e) := by
    apply eq_roundHalfEven
    · rw [hscaled, div_le_iff₀ hpos]
      linarith
    · intro hhalf
      rw [hscaled, div_eq_iff hpos.ne'] at hhalf
      exact_mod_cast heven (by linarith)
  rw [rounded, unit, hunit, ← hnearest]
  push_cast
  rfl

open Decimal (RoundingInterval)

theorem exponent_significand (x : Float) :
    (significand x).2 = if exponentField x = 0 then -1074 else (exponentField x : Int) - 1075 := by
  unfold significand
  split <;> rfl

/-- The ends of the interval around a number. They belong to it if the significand is even. -/
theorem contains_iff : (RoundingInterval.ofFloat x).contains q = true ↔
    let r := RoundingInterval.ofFloat x
    r.low ≤ q ∧ q ≤ r.high ∧ ((significand x).1 % 2 = 0 ∨ r.low < q ∧ q < r.high) := by
  have hclosed : (RoundingInterval.ofFloat x).closed = decide ((significand x).1 % 2 = 0) := rfl
  unfold RoundingInterval.contains
  rw [hclosed]
  dsimp only
  by_cases heven : (significand x).1 % 2 = 0
  · simp [heven]
  · simp only [heven, decide_false, Bool.false_eq_true, if_false, Bool.and_eq_true, decide_eq_true_eq,
      false_or]
    exact ⟨fun ⟨hlow, hhigh⟩ => ⟨hlow.le, hhigh.le, hlow, hhigh⟩, fun ⟨_, _, hinside⟩ => hinside⟩

/-- What is half a unit away from a number, with units no smaller. -/
theorem rounded_of_same_unit {m : Nat} {e : Int} (hplace : InPlace m e) (hq : 0 < q)
    (hlead : 2 ^ 52 * 2 ^ e ≤ q ∨ e = -1074) (hlow : m * 2 ^ e - 2 ^ e / 2 ≤ q)
    (hhigh : q ≤ m * 2 ^ e + 2 ^ e / 2)
    (hends : m % 2 = 0 ∨ m * 2 ^ e - 2 ^ e / 2 < q ∧ q < m * 2 ^ e + 2 ^ e / 2) :
    rounded q = m * 2 ^ e := by
  have hunit := zpow_two_pos e
  have hbits : (m : Rat) + 1 ≤ 2 ^ 53 := by exact_mod_cast hplace.bits
  have hbelow : q < 2 ^ 53 * 2 ^ e := by
    have := mul_le_mul_of_nonneg_right hbits hunit.le
    linarith
  refine rounded_eq_of_near (unitExponent_of_mem hplace.low hq hlead hbelow) ?_ fun htie => ?_
  · rw [abs_le]
    constructor <;> linarith
  · rcases hends with heven | ⟨hinside, hinside'⟩
    · exact heven
    · have : |q - m * 2 ^ e| < 2 ^ e / 2 := abs_lt.mpr ⟨by linarith, by linarith⟩
      exact absurd htie this.ne

/-- Below a power of two the units are half as wide. -/
theorem rounded_of_lower_unit {e : Int} (he : -1074 < e) (hlow : 2 ^ 52 * 2 ^ e - 2 ^ e / 4 ≤ q)
    (hhigh : q < 2 ^ 52 * 2 ^ e) : rounded q = 2 ^ 52 * 2 ^ e := by
  have hunit := zpow_two_pos (e - 1)
  have hhalf : (2 : Rat) ^ e = 2 * 2 ^ (e - 1) := by
    rw [show e = 1 + (e - 1) by ring, zpow_two_add]
    norm_num
  rw [hhalf] at hlow hhigh ⊢
  have hq : 0 < q := by linarith
  have hexponent : unitExponent q = e - 1 :=
    unitExponent_of_mem (by omega) hq (.inl (by linarith)) (by linarith)
  have hnear : |q - (2 ^ 53 : Nat) * 2 ^ (e - 1)| ≤ 2 ^ (e - 1) / 2 := by
    push_cast
    rw [abs_le]
    constructor <;> linarith
  rw [rounded_eq_of_near hexponent hnear fun _ => by norm_num]
  push_cast
  ring

/-- Everything in the interval around a number rounds to it. -/
theorem rounded_of_contains (hpos : 0 < magnitude x)
    (h : (RoundingInterval.ofFloat x).contains q = true) : 0 < q ∧ rounded q = magnitude x := by
  obtain ⟨hlow, hhigh, hends⟩ := contains_iff.mp h
  have hplace := inPlace_significand x
  have hexponent := exponent_significand x
  rw [magnitude_eq] at hpos ⊢
  unfold RoundingInterval.ofFloat at hlow hhigh hends
  dsimp only at hlow hhigh hends
  generalize (significand x).1 = m at *
  generalize (significand x).2 = e at *
  have hunit := zpow_two_pos e
  have hone : (1 : Rat) ≤ m := by
    have hne : (m : Rat) ≠ 0 := left_ne_zero_of_mul hpos.ne'
    exact_mod_cast Nat.one_le_iff_ne_zero.mpr (by exact_mod_cast hne)
  have hleast : 2 ^ e ≤ (m : Rat) * 2 ^ e := le_mul_of_one_le_left hunit.le hone
  have hq : 0 < q := by
    split_ifs at hlow <;> linarith
  refine ⟨hq, ?_⟩
  split_ifs at hlow hends with hpower
  · obtain ⟨rfl, hnormal⟩ := hpower
    have he : -1074 < e := by
      rw [if_neg (by omega)] at hexponent
      omega
    have hlead : ((leadingBit : Nat) : Rat) = 2 ^ 52 := by norm_num [leadingBit]
    rw [hlead] at hlow hhigh ⊢
    rcases lt_or_ge q (2 ^ 52 * 2 ^ e) with hbelow | habove
    · exact rounded_of_lower_unit he hlow hbelow
    · have hsame := rounded_of_same_unit hplace hq (.inl habove)
      rw [hlead] at hsame
      exact hsame (by linarith) hhigh (.inl (by decide))
  · refine rounded_of_same_unit hplace hq ?_ hlow hhigh hends
    rcases hplace.lead with hlead | hsmallest
    · by_cases hequal : m = leadingBit
      · right
        split_ifs at hexponent <;> omega
      · left
        have hnext : (2 ^ 52 + 1 : Rat) ≤ m := by
          unfold leadingBit at hequal
          exact_mod_cast (by omega : 2 ^ 52 + 1 ≤ m)
        have := mul_le_mul_of_nonneg_right hnext hunit.le
        linarith
    · exact .inr hsmallest

/-- A number that a decimal rounds to is read from the decimal. -/
theorem ofDecimal_eq {m : Nat} {e : Int} (hfinite : isFinite x = true) (hpos : 0 < magnitude x)
    (hq : 0 < (m : Rat) * 10 ^ e) (hrounds : rounded (m * 10 ^ e) = magnitude x) :
    ofDecimal (signBit x) m e = x := by
  have hm : m ≠ 0 := by
    rintro rfl
    simp at hq
  obtain ⟨hleast, hmost⟩ := zpow_digitCount_le hm
  -- The cuts before the search do not concern what rounds to a number.
  have hread {y : Float} (hyfinite : isFinite y = true) (hysign : signBit y = false)
      (hmagnitude : magnitude y = magnitude x) : ofDecimal false m e = y := by
    rw [← hmagnitude] at hpos hrounds
    obtain ⟨hlow, hhigh⟩ := zpow_ten_bounds hyfinite hysign hpos hq hrounds
    have hlow' : -330 < (digitCount m : Int) + e := by
      rw [← zpow_lt_zpow_iff_right₀ (by norm_num : (1 : Rat) < 10), zpow_ten_add]
      rw [sub_add_cancel] at hmost
      exact hlow.trans_lt (mul_lt_mul_of_pos_right hmost (zpow_ten_pos e))
    have hhigh' : (digitCount m : Int) - 1 + e < 320 := by
      rw [← zpow_lt_zpow_iff_right₀ (by norm_num : (1 : Rat) < 10), zpow_ten_add]
      exact (mul_le_mul_of_nonneg_right hleast (zpow_ten_pos e).le).trans_lt hhigh
    have hfirst : ¬(m = 0 ∨ (digitCount m : Int) + e < -330) := by omega
    have hsecond : ¬320 < (digitCount m : Int) + e := by omega
    unfold ofDecimal
    unfold digitCount at hfirst hsecond
    dsimp only
    rw [if_neg hfirst, if_neg hsecond, nearest?_eq hyfinite hysign hpos hrounds]
    rfl
  cases hsign : signBit x with
  | false => exact hread hfinite hsign rfl
  | true =>
    obtain ⟨y, hyfinite, hysign, hmagnitude, hneg⟩ := exists_neg hfinite hsign hpos
    have hpositive := hread hyfinite hysign hmagnitude
    rw [← hneg, ← hpositive]
    rfl

end Binary64

namespace Decimal

open Binary64

namespace RoundingInterval

variable {r : RoundingInterval} {e : Int}

theorem contains_of_lt (hlow : r.low < q) (hhigh : q < r.high) : r.contains q = true := by
  unfold contains
  split <;> simp [hlow, hhigh, hlow.le, hhigh.le]

theorem contains_of_onGrid? {d : Scientific} (hvalue : 0 ≤ r.value) (h : r.onGrid? e = some d) :
    r.contains d.value = true := by
  have hfloor : 0 ≤ (r.value / 10 ^ e).floor :=
    Rat.le_floor_iff.mpr (by exact_mod_cast div_nonneg hvalue (zpow_ten_pos e).le)
  unfold onGrid? at h
  dsimp only at h
  split at h
  · simp at h
  · next hbelow _ => rwa [← Option.some.inj h]
  · next _ habove => rwa [← Option.some.inj h]
  · next hbelow habove =>
    rw [← Option.some.inj h]
    rcases roundHalfEven_cases (r.value / 10 ^ e) with ⟨hround, -⟩ | ⟨hround, -⟩ <;> rw [hround]
    · exact hbelow
    · rwa [Int.toNat_add hfloor (by decide)]

/-- On a grid that is finer than the interval something is found. -/
theorem onGrid?_isSome (hvalue : 0 ≤ r.value) (hlow : 10 ^ e / 2 < r.value - r.low)
    (hhigh : 10 ^ e / 2 < r.high - r.value) : (r.onGrid? e).isSome = true := by
  have hunit := zpow_ten_pos e
  have hfloor : 0 ≤ (r.value / 10 ^ e).floor :=
    Rat.le_floor_iff.mpr (by exact_mod_cast div_nonneg hvalue hunit.le)
  have hbelow := Rat.floor_le (r.value / 10 ^ e)
  have habove := Rat.lt_floor_add_one (r.value / 10 ^ e)
  push_cast at habove
  rw [le_div_iff₀ hunit] at hbelow
  rw [div_lt_iff₀ hunit] at habove
  have hcast : (((r.value / 10 ^ e).floor.toNat : Nat) : Rat) = (r.value / 10 ^ e).floor := by
    rw [← Int.cast_natCast, Int.toNat_of_nonneg hfloor]
  -- The nearer neighbour is half a step away at most.
  have hnear : r.contains (Scientific.value ⟨(r.value / 10 ^ e).floor.toNat, e⟩) = true ∨
      r.contains (Scientific.value ⟨(r.value / 10 ^ e).floor.toNat + 1, e⟩) = true := by
    unfold Scientific.value
    push_cast
    rw [hcast]
    rcases le_total (r.value - (r.value / 10 ^ e).floor * 10 ^ e) (10 ^ e / 2) with hless | hmore
    · exact .inl (contains_of_lt (by linarith) (by linarith))
    · exact .inr (contains_of_lt (by linarith) (by linarith))
  unfold onGrid?
  dsimp only
  split <;> simp_all

end RoundingInterval

namespace Scientific

theorem value_go (fuel m : Nat) (e : Int) : (trimmed.go fuel m e).value = m * 10 ^ e := by
  induction fuel generalizing m e with
  | zero => rfl
  | succ fuel ih =>
    unfold trimmed.go
    split
    · next htrailing =>
      have hm : (m : Rat) = (m / 10 : Nat) * 10 := by
        exact_mod_cast (by omega : m = m / 10 * 10)
      rw [ih, hm, add_comm, zpow_ten_add, zpow_one]
      ring_nf
    · rfl

theorem value_trimmed (d : Scientific) : d.trimmed.value = d.value := value_go _ _ _

end Scientific

/-- Half of the last of seventeen digits is less than what rounds to a number on either side. -/
theorem seventeen_digits_suffice {x : Float} (hpos : 0 < magnitude x) :
    let r := RoundingInterval.ofFloat x
    (r.onGrid? (floorLog10 r.value - (16 : Nat))).isSome = true := by
  dsimp only
  have hvalue : (RoundingInterval.ofFloat x).value = magnitude x := rfl
  have hplace := inPlace_significand x
  have hlead := (floorLog10_spec hpos).1
  have hgrid : (10 : Rat) ^ (floorLog10 (magnitude x) - (16 : Nat)) * 10 ^ 16 ≤ magnitude x := by
    rwa [← zpow_natCast, ← zpow_ten_add, sub_add_cancel]
  have hunit := zpow_two_pos (significand x).2
  have hbits : ((significand x).1 : Rat) < 2 ^ 53 := by exact_mod_cast hplace.bits
  have hsize := mul_lt_mul_of_pos_right hbits hunit
  rw [← magnitude_eq] at hsize
  apply RoundingInterval.onGrid?_isSome (hvalue ▸ hpos.le) <;> rw [hvalue] <;>
    generalize (10 : Rat) ^ (floorLog10 (magnitude x) - (16 : Nat)) = grid at hgrid ⊢
  · have hlow : magnitude x - (RoundingInterval.ofFloat x).low =
        if (significand x).1 = leadingBit ∧ 1 < exponentField x then 2 ^ (significand x).2 / 4
        else 2 ^ (significand x).2 / 2 := sub_sub_cancel _ _
    rw [hlow]
    split_ifs with hpower
    · have hmagnitude : magnitude x = 2 ^ 52 * 2 ^ (significand x).2 := by
        rw [magnitude_eq, hpower.1]
        norm_num [leadingBit]
      linarith
    · linarith
  · have hhigh : (RoundingInterval.ofFloat x).high - magnitude x =
        2 ^ (significand x).2 / 2 := add_sub_cancel_left _ _
    rw [hhigh]
    linarith

theorem rounded_shortest {x : Float} (hpos : 0 < magnitude x) :
    0 < (shortest x).value ∧ rounded (shortest x).value = magnitude x := by
  have hfound : ((List.range 17).findSome? fun (n : Nat) => (RoundingInterval.ofFloat x).onGrid?
      (floorLog10 (RoundingInterval.ofFloat x).value - n)).isSome = true :=
    List.findSome?_isSome_iff.mpr ⟨16, by simp, seventeen_digits_suffice hpos⟩
  obtain ⟨d, hd⟩ := Option.isSome_iff_exists.mp hfound
  obtain ⟨n, -, hgrid⟩ := List.exists_of_findSome?_eq_some hd
  have hshortest : shortest x = d.trimmed := by
    unfold shortest
    dsimp only
    rw [hd, Option.getD_some]
  rw [hshortest, Scientific.value_trimmed]
  exact rounded_of_contains hpos (RoundingInterval.contains_of_onGrid? hpos.le hgrid)

end Decimal

end MapLayers
