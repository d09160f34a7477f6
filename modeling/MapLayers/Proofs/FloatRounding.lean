import MapLayers.Proofs.FloatForms

/-!
# Rounding of floating-point results

An operation shifts a significand to the last place of its result and keeps two further bits of what it
drops. These say on which side of a half the rest lies, so the result is the exact number rounded once.
-/

namespace MapLayers.Binary64

open Float.Model (Format UnpackedFloat)
open Float.Model.UnpackedFloat

/-- The numbers that the two further bits of a mantissa leave possible. -/
def StandsFor : ExtendedMantissa → Rat → Prop
  | ⟨m, false, false⟩, q => q = m
  | ⟨m, false, true⟩, q => m < q ∧ q < m + 1 / 2
  | ⟨m, true, false⟩, q => q = m + 1 / 2
  | ⟨m, true, true⟩, q => m + 1 / 2 < q ∧ q < m + 1

variable {em : ExtendedMantissa} {q : Rat}

theorem StandsFor.bounds (h : StandsFor em q) : (em.mantissa : Rat) ≤ q ∧ q < em.mantissa + 1 := by
  rcases em with ⟨m, _ | _, _ | _⟩ <;> simp only [StandsFor] at h ⊢ <;> constructor <;> linarith

theorem StandsFor.shiftRightOne (h : StandsFor em q) : StandsFor em.shiftRightOne (q / 2) := by
  rcases em with ⟨m, round, sticky⟩
  have hm : (m : Rat) = 2 * (m / 2 : Nat) + (m % 2 : Nat) := by exact_mod_cast (Nat.div_add_mod m 2).symm
  rcases Nat.mod_two_eq_zero_or_one m with hbit | hbit <;> rw [hbit] at hm <;> push_cast at hm <;>
    cases round <;> cases sticky <;>
    simp only [StandsFor, ExtendedMantissa.shiftRightOne, hbit, bne_self_eq_false, Nat.reduceBNe,
      Bool.or_false, Bool.or_true] at h ⊢ <;>
    first | linarith | (constructor <;> linarith)

theorem StandsFor.shiftRight (h : StandsFor em q) (k : Nat) : StandsFor (em >>> k) (q / 2 ^ k) := by
  induction k with
  | zero =>
    rw [pow_zero, div_one]
    exact h
  | succ k ih =>
    rw [pow_succ, ← div_div]
    exact ih.shiftRightOne

/-- The further bits decide as the whole number would. -/
theorem StandsFor.roundedMantissa (h : StandsFor em q) :
    (em.roundedMantissa : Int) = roundHalfEven q := by
  rcases em with ⟨m, _ | _, _ | _⟩ <;> simp only [StandsFor] at h <;>
    simp only [ExtendedMantissa.roundedMantissa, ExtendedMantissa.accuracy,
      Accuracy.roundToNearestEven]
  case false.false =>
    rw [h]
    exact (roundHalfEven_intCast m).symm
  case false.true =>
    refine (roundHalfEven_eq_of_lt ?_).symm
    rw [abs_lt]
    push_cast
    constructor <;> linarith
  case true.false =>
    rw [h]
    exact (roundHalfEven_add_half m).symm
  case true.true =>
    refine (roundHalfEven_eq_of_lt ?_).symm
    rw [abs_lt]
    push_cast
    constructor <;> linarith

theorem standsFor_exact (m : Nat) : StandsFor (.ofMantissaAndAccuracy m .exact) m := rfl

theorem mantissa_ofMantissaAndAccuracy (m : Nat) (accuracy : Accuracy) :
    (ExtendedMantissa.ofMantissaAndAccuracy m accuracy).mantissa = m := by
  rcases accuracy with _ | (_ | _ | _) <;> rfl

/-- The last place that a mantissa is shifted to. -/
theorem targetExponent_eq (m : Nat) (e : Int) :
    Format.binary64.targetExponent (Float.Model.totalExponent m e) =
      max (m.log2 + e - 52) (-1074) := by
  unfold Format.targetExponent Float.Model.totalExponent Format.minExponent Format.mantissaBits
  norm_num
  omega

/-- A mantissa has all the bits that its last place leaves, and more to round. -/
def HasBits (m : Nat) (e : Int) : Prop := 52 ≤ m.log2 ∨ e ≤ -1074

theorem unitExponent_eq {m : Nat} {e : Int} (hbits : HasBits m e) (hq : 0 < q) (hlow : (m : Rat) ≤ q)
    (hhigh : q < m + 1) : unitExponent (q * 2 ^ e) = max (m.log2 + e - 52) (-1074) := by
  have he := zpow_two_pos e
  unfold unitExponent
  rw [abs_of_pos (mul_pos hq he)]
  rcases Nat.eq_zero_or_pos m with rfl | hm
  · have hsmall : floorLog2 (q * 2 ^ e) < e := by
      refine zpow_two_lt_iff.mp ((floorLog2_spec (mul_pos hq he)).1.trans_lt ?_)
      push_cast at hhigh
      nlinarith
    rcases hbits with hbits | hbits
    · simp at hbits
    · rw [Nat.log2_zero]
      push_cast
      omega
  · obtain ⟨hle, -⟩ := zpow_log2_le hm.ne'
    have hlt : (m : Rat) + 1 ≤ 2 ^ ((m.log2 : Int) + 1) := by
      rw [← Int.natCast_succ, zpow_natCast]
      exact_mod_cast Nat.lt_log2_self
    rw [floorLog2_eq (e := m.log2 + e)]
    · rw [zpow_two_add]
      exact mul_le_mul_of_nonneg_right (hle.trans hlow) he.le
    · rw [show (m.log2 : Int) + e + 1 = m.log2 + 1 + e by ring, zpow_two_add]
      exact mul_lt_mul_of_pos_right (hhigh.trans_le hlt) he

/-- An exact mantissa within its bits is not shifted. -/
theorem shiftToTargetExponent_of_lt {m : Nat} {e : Int} (hm : m < 2 ^ 53) (he : -1074 ≤ e) :
    shiftToTargetExponent .binary64 m e .exact = (⟨m, false, false⟩, e) := by
  have hlog : m.log2 ≤ 52 := by
    rcases Nat.eq_zero_or_pos m with rfl | hpos
    · simp
    · have := (Nat.log2_lt hpos.ne').mpr hm
      omega
  have hzero : (Format.binary64.targetExponent (Float.Model.totalExponent m e) - e).toNat = 0 := by
    rw [targetExponent_eq]
    omega
  simp only [shiftToTargetExponent, shiftToExponent, hzero, Nat.cast_zero, add_zero]
  rfl

/-- One that has one bit too many is halved. -/
theorem shiftToTargetExponent_carry {e : Int} (he : -1074 ≤ e) :
    shiftToTargetExponent .binary64 (2 ^ 53) e .exact = (⟨2 ^ 52, false, false⟩, e + 1) := by
  have hone : (Format.binary64.targetExponent (Float.Model.totalExponent (2 ^ 53) e) - e).toNat = 1 := by
    rw [targetExponent_eq, Nat.log2_two_pow]
    omega
  simp only [shiftToTargetExponent, shiftToExponent, hone, Nat.cast_one]
  rfl

theorem roundWithAccuracy_spec {s : Sign} {m : Nat} {e : Int} {accuracy : Accuracy}
    (hq : 0 < q) (hstands : StandsFor (.ofMantissaAndAccuracy m accuracy) q) (hbits : HasBits m e) :
    (roundWithAccuracy .binary64 s m e accuracy = .zero s ∧ rounded (q * 2 ^ e) = 0) ∨
    ∃ (n : Nat) (f : Int) (hn : 0 < n),
      roundWithAccuracy .binary64 s m e accuracy = .finite s n f hn ∧
      InPlace n f ∧ rounded (q * 2 ^ e) = n * 2 ^ f := by
  obtain ⟨hlow, hhigh⟩ := hstands.bounds
  rw [mantissa_ofMantissaAndAccuracy] at hlow hhigh
  have hunit := unitExponent_eq hbits hq hlow hhigh
  have htarget := targetExponent_eq m e
  rw [← hunit] at htarget
  have hle : e ≤ unitExponent (q * 2 ^ e) := by
    rcases hbits with h | h <;> omega
  -- The first shift leaves the exact number in units of its last place.
  generalize hk : (unitExponent (q * 2 ^ e) - e).toNat = k
  have hshift : e + (k : Int) = unitExponent (q * 2 ^ e) := by omega
  have hfirst : shiftToTargetExponent .binary64 m e accuracy =
      (ExtendedMantissa.ofMantissaAndAccuracy m accuracy >>> k, unitExponent (q * 2 ^ e)) := by
    simp only [shiftToTargetExponent, shiftToExponent, htarget, hk, hshift]
  have hunits : q / 2 ^ k = q * 2 ^ e / unit (q * 2 ^ e) := by
    rw [unit, ← hshift, zpow_two_add, zpow_natCast]
    have := zpow_two_pos e
    field_simp
  have hround := (hstands.shiftRight k).roundedMantissa
  rw [hunits] at hround
  have hx : 0 < q * 2 ^ e := mul_pos hq (zpow_two_pos e)
  have hsmallest : -1074 ≤ unitExponent (q * 2 ^ e) := le_max_right _ _
  have hmost := abs_roundHalfEven_units (q * 2 ^ e)
  have hleast := le_roundHalfEven_units hx
  have hvalue : rounded (q * 2 ^ e) = roundHalfEven (q * 2 ^ e / unit (q * 2 ^ e)) *
      2 ^ unitExponent (q * 2 ^ e) := rfl
  unfold roundWithAccuracy
  rw [hfirst]
  dsimp only
  rw [← hround] at hmost hleast hvalue
  generalize (ExtendedMantissa.ofMantissaAndAccuracy m accuracy >>> k).roundedMantissa = r at *
  generalize unitExponent (q * 2 ^ e) = t at *
  rw [Int.cast_natCast] at hvalue
  rw [Nat.abs_cast] at hmost
  rcases Nat.eq_zero_or_pos r with rfl | hr
  · left
    rw [shiftToTargetExponent_of_lt (by decide) hsmallest, hvalue]
    exact ⟨rfl, by simp⟩
  · right
    rcases (show r < 2 ^ 53 ∨ r = 2 ^ 53 by omega) with hless | rfl
    · rw [shiftToTargetExponent_of_lt hless hsmallest]
      exact ⟨r, t, hr, dif_neg hr.ne', ⟨hless, hsmallest, by omega⟩, hvalue⟩
    · rw [shiftToTargetExponent_carry hsmallest]
      refine ⟨2 ^ 52, t + 1, by decide, dif_neg (show 2 ^ 52 ≠ 0 by decide),
        ⟨by decide, by omega, .inl le_rfl⟩, ?_⟩
      rw [hvalue, zpow_two_add]
      push_cast
      ring

/-- `q` rounded, unless it is beyond the largest number there is. -/
def nearestValue? (q : Rat) : Option Rat :=
  if |rounded q| < 2 ^ (1024 : Int) then some (rounded q) else none

/-- Storing `u` gives the number nearest to `q`. -/
def Rounds (u : UnpackedFloat) (q : Rat) : Prop :=
  ratOf? (Float.Model.pack u).unpack = nearestValue? q

/-- The number with a sign. -/
def signed : Sign → Rat → Rat
  | .negative, q => -q
  | .positive, q => q

theorem cast_apply (s : Sign) (m : Nat) : ((s.apply m : Int) : Rat) = signed s m := by
  cases s <;> simp [Sign.apply, signed]

theorem rounded_signed (s : Sign) (q : Rat) : rounded (signed s q) = signed s (rounded q) := by
  cases s
  · exact rounded_neg q
  · rfl

theorem signed_zero (s : Sign) : signed s 0 = 0 := by
  cases s <;> simp [signed]

theorem abs_signed (s : Sign) (q : Rat) : |signed s q| = |q| := by
  cases s
  · exact abs_neg q
  · rfl

theorem nearestValue?_signed (s : Sign) (q : Rat) :
    nearestValue? (signed s q) = (nearestValue? q).map (signed s) := by
  unfold nearestValue?
  rw [rounded_signed, abs_signed]
  split <;> rfl

/-- A mantissa in place with too large an exponent is stored as an infinity. -/
theorem unpack_pack_large {s : Sign} {m : Nat} {e : Int} {hm : 0 < m} (he : 971 < e) :
    (Float.Model.pack (.finite s m e hm)).unpack = .infinity s := by
  change UnpackedFloat.unpack .binary64 (UnpackedFloat.pack .binary64 (.finite s m e hm)) = _
  have hbias : (Format.binary64.exponentBias : Int) = 1023 := rfl
  unfold UnpackedFloat.pack
  dsimp only
  rw [if_pos (by simp only [hbias]; omega)]
  cases s <;> rfl

/-- The exponents that are too large are those of the numbers beyond the largest one. -/
theorem InPlace.lt_iff {m : Nat} {e : Int} (h : InPlace m e) :
    (m : Rat) * 2 ^ e < 2 ^ (1024 : Int) ↔ e ≤ 971 := by
  have he := zpow_two_pos e
  constructor
  · intro hless
    rcases h.lead with hlead | rfl
    · have hm : (2 : Rat) ^ (52 : Int) ≤ m := by exact_mod_cast hlead
      have hpow : (2 : Rat) ^ (52 + e) < 2 ^ (1024 : Int) :=
        (zpow_two_add 52 e ▸ mul_le_mul_of_nonneg_right hm he.le).trans_lt hless
      have := zpow_two_lt_iff.mp hpow
      omega
    · decide
  · intro hsmall
    have hm : (m : Rat) < 2 ^ 53 := by exact_mod_cast h.bits
    calc (m : Rat) * 2 ^ e < 2 ^ 53 * 2 ^ e := mul_lt_mul_of_pos_right hm he
      _ = 2 ^ (53 + e) := by rw [zpow_two_add]; norm_num
      _ ≤ 2 ^ (1024 : Int) := zpow_two_le (by omega)

theorem rounds_of_inPlace {s : Sign} {m : Nat} {e : Int} {hm : 0 < m} (h : InPlace m e)
    (hvalue : rounded q = m * 2 ^ e) : Rounds (.finite s m e hm) (signed s q) := by
  have hsize : |rounded q| < 2 ^ (1024 : Int) ↔ e ≤ 971 := by
    rw [hvalue, abs_of_nonneg (mul_nonneg (Nat.cast_nonneg m) (zpow_two_pos e).le)]
    exact h.lt_iff
  rcases le_or_gt e 971 with he | he
  · rw [Rounds, unpack_pack (.finite s m e hm h he), nearestValue?_signed, nearestValue?,
      if_pos (hsize.mpr he), hvalue, ratOf?, cast_apply]
    cases s <;> simp [signed]
  · rw [Rounds, unpack_pack_large he, nearestValue?_signed, nearestValue?,
      if_neg (by rw [hsize]; omega)]
    rfl

theorem rounds_zero (s : Sign) (h : rounded q = 0) : Rounds (.zero s) q := by
  rw [Rounds, unpack_pack (.zero s), nearestValue?, h, abs_zero, if_pos (zpow_two_pos _)]
  rfl

theorem roundWithAccuracy_rounds {s : Sign} {m : Nat} {e : Int} {accuracy : Accuracy}
    (hq : 0 < q) (hstands : StandsFor (.ofMantissaAndAccuracy m accuracy) q) (hbits : HasBits m e) :
    Rounds (roundWithAccuracy .binary64 s m e accuracy) (signed s (q * 2 ^ e)) := by
  rcases roundWithAccuracy_spec (s := s) hq hstands hbits with
    ⟨hzero, hvalue⟩ | ⟨n, f, hn, hfinite, hplace, hvalue⟩
  · rw [hzero]
    refine rounds_zero s ?_
    rw [rounded_signed, hvalue, signed_zero]
  · rw [hfinite]
    exact rounds_of_inPlace hplace hvalue

theorem log2_shiftLeft {m : Nat} (hm : 0 < m) (k : Nat) : (m <<< k).log2 = m.log2 + k := by
  rw [Nat.shiftLeft_eq, Nat.log2_eq_iff (by positivity)]
  have hlow := Nat.log2_self_le hm.ne'
  have hhigh := Nat.lt_log2_self (n := m)
  constructor
  · rw [pow_add]
    exact Nat.mul_le_mul_right _ hlow
  · rw [show m.log2 + k + 1 = m.log2 + 1 + k by ring, pow_add]
    exact Nat.mul_lt_mul_of_pos_right hhigh (by positivity)

theorem shiftLeft_value (m k : Nat) (e : Int) :
    ((m <<< k : Nat) : Rat) * 2 ^ (e - k) = m * 2 ^ e := by
  rw [Nat.shiftLeft_eq]
  push_cast
  rw [mul_assoc, ← zpow_natCast, ← zpow_two_add, add_sub_cancel]

theorem round_rounds {s : Sign} {m : Nat} (hm : 0 < m) (e : Int) :
    Rounds (UnpackedFloat.round .binary64 s m e) (signed s (m * 2 ^ e)) := by
  unfold UnpackedFloat.round decreaseExponent
  dsimp only
  rw [targetExponent_eq]
  generalize hk : (e - max (m.log2 + e - 52) (-1074)).toNat = k
  have hbits : HasBits (m <<< k) (e - k) := by
    unfold HasBits
    rw [log2_shiftLeft hm]
    omega
  rw [← shiftLeft_value m k e]
  exact roundWithAccuracy_rounds
    (by rw [Nat.shiftLeft_eq]; push_cast; positivity) (standsFor_exact _) hbits

theorem normalize_rounds (m : Int) (e : Int) (zero : Sign) :
    Rounds (UnpackedFloat.normalize .binary64 m e zero) (m * 2 ^ e) := by
  unfold UnpackedFloat.normalize
  split
  · next h =>
    have hneg := Int.compare_eq_lt.mp h
    have hm : (m : Rat) = signed .negative (-m).toNat := by
      rw [signed, ← Int.cast_natCast, Int.toNat_of_nonneg (by omega)]
      simp
    have := round_rounds (s := .negative) (show 0 < (-m).toNat by omega) e
    rw [hm]
    simpa [signed] using this
  · next h =>
    rw [Int.compare_eq_eq.mp h]
    exact rounds_zero zero (by simp [rounded_zero])
  · next h =>
    have hpos := Int.compare_eq_gt.mp h
    have hm : (m : Rat) = (m.toNat : Rat) := by
      rw [← Int.cast_natCast, Int.toNat_of_nonneg (by omega)]
    rw [hm]
    exact round_rounds (s := .positive) (by omega) e

/-- The stored numbers that denote a rational. -/
theorem Canonical.cases_rat {u : UnpackedFloat} (hu : Canonical u) {p : Rat}
    (hp : ratOf? u = some p) : (∃ s, u = .zero s ∧ p = 0) ∨
      ∃ s m e hm, u = .finite s m e hm ∧ InPlace m e ∧ e ≤ 971 ∧ p = signed s (m * 2 ^ e) := by
  cases hu with
  | notANumber => simp [ratOf?] at hp
  | infinity => simp [ratOf?] at hp
  | zero s => exact .inl ⟨s, rfl, (Option.some.inj hp).symm⟩
  | finite s m e hm hplace hhigh =>
    refine .inr ⟨s, m, e, hm, rfl, hplace, hhigh, ?_⟩
    rw [← Option.some.inj hp, cast_apply]
    cases s <;> simp [signed]

/-- A larger exponent makes the larger number. -/
theorem InPlace.lt_of_exponent {m n : Nat} {e f : Int} (h : InPlace m e) (h' : InPlace n f)
    (hlt : e < f) : (m : Rat) * 2 ^ e < n * 2 ^ f := by
  have hlead : 2 ^ 52 ≤ n := h'.lead.resolve_right (by have := h.low; omega)
  calc (m : Rat) * 2 ^ e < 2 ^ (53 : Int) * 2 ^ e :=
        mul_lt_mul_of_pos_right (by exact_mod_cast h.bits) (zpow_two_pos e)
    _ = 2 ^ (53 + e) := (zpow_two_add 53 e).symm
    _ ≤ 2 ^ (52 + f) := zpow_two_le (by omega)
    _ = 2 ^ (52 : Int) * 2 ^ f := zpow_two_add 52 f
    _ ≤ n * 2 ^ f := mul_le_mul_of_nonneg_right (by exact_mod_cast hlead) (zpow_two_pos f).le

theorem representable_of_inPlace {m : Nat} {e : Int} (h : InPlace m e) :
    Representable (m * 2 ^ e) :=
  ⟨m, e, by rw [Nat.abs_cast]; have := h.bits; omega, h.low, by rw [Int.cast_natCast]⟩

/-- Numbers of the format are stored as they are. -/
theorem rounds_of_canonical {u : UnpackedFloat} (hu : Canonical u) {p : Rat}
    (hp : ratOf? u = some p) : Rounds u p := by
  rcases hu.cases_rat hp with ⟨s, rfl, rfl⟩ | ⟨s, m, e, hm, rfl, hplace, hhigh, rfl⟩
  · exact rounds_zero s rounded_zero
  · exact rounds_of_inPlace hplace (rounded_eq_self (representable_of_inPlace hplace))

theorem decreaseExponent_value (s : Sign) (m : Nat) {e f : Int} (h : f ≤ e) :
    ((s.apply (decreaseExponent m e f).1 : Int) : Rat) * 2 ^ f = signed s (m * 2 ^ e) := by
  have hshift := shiftLeft_value m (e - f).toNat e
  rw [Int.toNat_of_nonneg (by omega), sub_sub_cancel] at hshift
  unfold decreaseExponent
  dsimp only
  rw [cast_apply, ← hshift]
  cases s <;> simp only [signed, neg_mul]

theorem add_rounds {u v : UnpackedFloat} {p q : Rat} (hu : Canonical u) (hv : Canonical v)
    (hp : ratOf? u = some p) (hq : ratOf? v = some q) :
    Rounds (UnpackedFloat.add .binary64 u v) (p + q) := by
  rcases hu.cases_rat hp with ⟨s, rfl, rfl⟩ | ⟨s, m, e, hm, rfl, -, -, rfl⟩ <;>
    rcases hv.cases_rat hq with ⟨t, rfl, rfl⟩ | ⟨t, n, f, hn, rfl, -, -, rfl⟩
  · rw [zero_add]
    cases s <;> cases t <;> exact rounds_zero _ rounded_zero
  · rw [zero_add]
    exact rounds_of_canonical hv hq
  · rw [add_zero]
    exact rounds_of_canonical hu hp
  · rw [← decreaseExponent_value s m (min_le_left e f),
      ← decreaseExponent_value t n (min_le_right e f), ← add_mul, ← Int.cast_add]
    exact normalize_rounds _ _ _

theorem apply_neg (s : Sign) (n : Int) : (-s).apply n = -s.apply n := by
  cases s
  · exact (Int.neg_neg n).symm
  · rfl

/-- A difference is the sum with the opposite number. -/
theorem sub_eq_add (u v : UnpackedFloat) :
    UnpackedFloat.sub .binary64 u v = UnpackedFloat.add .binary64 u v.neg := by
  cases u <;> cases v <;>
    simp only [UnpackedFloat.sub, UnpackedFloat.add, UnpackedFloat.neg, apply_neg,
      Int.sub_eq_add_neg]

theorem Canonical.neg {u : UnpackedFloat} (hu : Canonical u) : Canonical u.neg := by
  cases hu with
  | notANumber => exact .notANumber
  | infinity s => exact .infinity _
  | zero s => exact .zero _
  | finite s m e hm hplace hhigh => exact .finite _ m e hm hplace hhigh

theorem ratOf?_neg (u : UnpackedFloat) : ratOf? u.neg = (ratOf? u).map (- ·) := by
  cases u <;> simp [UnpackedFloat.neg, ratOf?, apply_neg]

theorem signed_mul (s t : Sign) (p q : Rat) : signed s p * signed t q = signed (s * t) (p * q) := by
  cases s <;> cases t
  · exact neg_mul_neg p q
  · exact neg_mul p q
  · exact mul_neg p q
  · rfl

theorem signed_div (s t : Sign) (p q : Rat) : signed s p / signed t q = signed (s / t) (p / q) := by
  cases s <;> cases t
  · exact neg_div_neg_eq p q
  · exact neg_div q p
  · exact div_neg p
  · rfl

theorem InPlace.hasBits_mul {m n : Nat} {e f : Int} (hm : 0 < m) (hn : 0 < n) (h : InPlace m e)
    (h' : InPlace n f) : HasBits (m * n) (e + f) := by
  have hlead (hlead : 2 ^ 52 ≤ m * n) : 52 ≤ (m * n).log2 :=
    (Nat.le_log2 (Nat.mul_pos hm hn).ne').mpr hlead
  rcases h.lead with hl | rfl
  · exact .inl (hlead (hl.trans (Nat.le_mul_of_pos_right m hn)))
  rcases h'.lead with hl | rfl
  · exact .inl (hlead (hl.trans (Nat.le_mul_of_pos_left n hm)))
  · exact .inr (by decide)

theorem mul_rounds {u v : UnpackedFloat} {p q : Rat} (hu : Canonical u) (hv : Canonical v)
    (hp : ratOf? u = some p) (hq : ratOf? v = some q) :
    Rounds (UnpackedFloat.mul .binary64 u v) (p * q) := by
  rcases hu.cases_rat hp with ⟨s, rfl, rfl⟩ | ⟨s, m, e, hm, rfl, hplace, -, rfl⟩
  · rw [zero_mul]
    rcases hv.cases_rat hq with ⟨t, rfl, -⟩ | ⟨t, n, f, hn, rfl, -, -, -⟩ <;>
      exact rounds_zero _ rounded_zero
  rcases hv.cases_rat hq with ⟨t, rfl, rfl⟩ | ⟨t, n, f, hn, rfl, hplace', -, rfl⟩
  · rw [mul_zero]
    exact rounds_zero _ rounded_zero
  · have hvalue : (m : Rat) * 2 ^ e * (n * 2 ^ f) = (m * n : Nat) * 2 ^ (e + f) := by
      rw [zpow_two_add]
      push_cast
      ring
    rw [signed_mul, hvalue]
    exact roundWithAccuracy_rounds (by exact_mod_cast Nat.mul_pos hm hn) (standsFor_exact _)
      (hplace.hasBits_mul hm hn hplace')

/-- The rest of a division says how the quotient goes on. -/
theorem standsFor_fraction (m : Nat) {n : Nat} (hn : 0 < n) :
    StandsFor (.ofMantissaAndAccuracy (m / n) (accuracyOfFraction (m % n) n)) (m / n) := by
  have hn' : (0 : Rat) < n := by exact_mod_cast hn
  have hrest : (m % n : Nat) < (n : Rat) := by exact_mod_cast Nat.mod_lt m hn
  have hsplit : (m / n : Rat) = (m / n : Nat) + (m % n : Nat) / n := by
    have : (m : Rat) = n * (m / n : Nat) + (m % n : Nat) := by exact_mod_cast (Nat.div_add_mod m n).symm
    field_simp
    linarith
  rw [hsplit]
  unfold accuracyOfFraction
  split
  · next hzero =>
    rw [hzero]
    simp [StandsFor, ExtendedMantissa.ofMantissaAndAccuracy]
  · next hpos =>
    have hpos' : (0 : Rat) < (m % n : Nat) := by exact_mod_cast Nat.pos_of_ne_zero hpos
    cases hcompare : compare (2 * (m % n)) n with
    | lt =>
      have hlt : (2 : Rat) * (m % n : Nat) < n := by exact_mod_cast Nat.compare_eq_lt.mp hcompare
      refine ⟨by linarith [div_pos hpos' hn'], ?_⟩
      have : ((m % n : Nat) : Rat) / n < 1 / 2 := by rw [div_lt_iff₀ hn']; linarith
      linarith
    | eq =>
      have heq : (2 : Rat) * (m % n : Nat) = n := by exact_mod_cast Nat.compare_eq_eq.mp hcompare
      have : ((m % n : Nat) : Rat) / n = 1 / 2 := by rw [div_eq_iff hn'.ne']; linarith
      simp only [StandsFor, ExtendedMantissa.ofMantissaAndAccuracy, this]
    | gt =>
      have hgt : (n : Rat) < 2 * (m % n : Nat) := by exact_mod_cast Nat.compare_eq_gt.mp hcompare
      have hhalf : 1 / 2 < ((m % n : Nat) : Rat) / n := by rw [lt_div_iff₀ hn']; linarith
      have hone : ((m % n : Nat) : Rat) / n < 1 := by rw [div_lt_iff₀ hn']; linarith
      exact ⟨by linarith, by linarith⟩

theorem divCore_spec {m n : Nat} (hm : 0 < m) (hn : 0 < n) (e f : Int) :
    ∃ (k : Nat) (g : Int), divCore .binary64 m e n f =
        ((m <<< k) / n, g, accuracyOfFraction ((m <<< k) % n) n) ∧
      g + k = e - f ∧ HasBits ((m <<< k) / n) g := by
  unfold divCore
  dsimp only
  have htarget : Format.binary64.targetExponent
      (Float.Model.totalExponent m e - Float.Model.totalExponent n f) =
        max (m.log2 - n.log2 + (e - f) - 53) (-1074) := by
    unfold Format.targetExponent Float.Model.totalExponent Format.minExponent Format.mantissaBits
    norm_num
    omega
  rw [htarget]
  generalize hg : min (e - f) (max ((m.log2 : Int) - n.log2 + (e - f) - 53) (-1074)) = g
  refine ⟨(e - f - g).toNat, g, rfl, by omega, ?_⟩
  generalize hk : (e - f - g).toNat = k
  rcases le_or_gt g (-1074) with hsmall | hlarge
  · exact .inr hsmall
  · left
    have hlog := log2_shiftLeft hm k
    have hle := Nat.log2_self_le (show m <<< k ≠ 0 by rw [Nat.shiftLeft_eq]; positivity)
    have hlt := Nat.lt_log2_self (n := n)
    have hquotient : 2 ^ 52 ≤ (m <<< k) / n := by
      rw [Nat.le_div_iff_mul_le hn]
      calc 2 ^ 52 * n ≤ 2 ^ 52 * 2 ^ (n.log2 + 1) := Nat.mul_le_mul_left _ hlt.le
        _ = 2 ^ (52 + (n.log2 + 1)) := (pow_add 2 52 _).symm
        _ ≤ 2 ^ (m <<< k).log2 := Nat.pow_le_pow_right (by decide) (by omega)
        _ ≤ m <<< k := hle
    exact (Nat.le_log2 (by omega)).mpr hquotient

theorem div_rounds {u v : UnpackedFloat} {p q : Rat} (hu : Canonical u) (hv : Canonical v)
    (hp : ratOf? u = some p) (hq : ratOf? v = some q) (hne : q ≠ 0) :
    Rounds (UnpackedFloat.div .binary64 u v) (p / q) := by
  rcases hv.cases_rat hq with ⟨t, rfl, rfl⟩ | ⟨t, n, f, hn, rfl, -, -, rfl⟩
  · exact absurd rfl hne
  rcases hu.cases_rat hp with ⟨s, rfl, rfl⟩ | ⟨s, m, e, hm, rfl, -, -, rfl⟩
  · rw [zero_div]
    exact rounds_zero _ rounded_zero
  · obtain ⟨k, g, hcore, hexponent, hbits⟩ := divCore_spec hm hn e f
    have hvalue : (m : Rat) * 2 ^ e / (n * 2 ^ f) = (m <<< k : Nat) / n * 2 ^ g := by
      have hshift := shiftLeft_value m k (g + k)
      rw [add_sub_cancel_right, hexponent, zpow_sub₀ (by norm_num)] at hshift
      have hf := zpow_two_pos f
      have hn' : (0 : Rat) < n := by exact_mod_cast hn
      field_simp at hshift ⊢
      linarith
    simp only [UnpackedFloat.div, hcore]
    rw [signed_div, hvalue]
    refine roundWithAccuracy_rounds ?_ (standsFor_fraction _ hn) hbits
    rw [Nat.shiftLeft_eq]
    push_cast
    positivity

end MapLayers.Binary64
