import MapLayers.Proofs.FloatBounds

/-!
# Stored numbers

A stored number is its sign with its two fields. A finite one is settled by its sign and its magnitude, an
infinite one by its sign, and there is one that is no number. So the number nearest to a rational is the one
that the rational rounds to.
-/

namespace MapLayers.Binary64

open Float.Model (Format)
open Float.Model.UnpackedFloat

variable {x y : Float} {q : Rat}

theorem eq_of_bits (h : x.toBits.toNat = y.toBits.toNat) : x = y := by
  obtain ⟨⟨a, ha⟩⟩ := x
  obtain ⟨⟨b, hb⟩⟩ := y
  obtain rfl : a = b := UInt64.toNat_inj.mp h
  rfl

theorem eq_of_fields (hsign : signBit x = signBit y) (hexponent : exponentField x = exponentField y)
    (hfraction : fractionField x = fractionField y) : x = y := by
  have hx := x.toBits.toNat_lt
  have hy := y.toBits.toNat_lt
  apply eq_of_bits
  unfold signBit at hsign
  unfold exponentField leadingBit at hexponent
  unfold fractionField leadingBit at hfraction
  rw [decide_eq_decide] at hsign
  omega

theorem fields_lt (x : Float) : exponentField x < 2048 ∧ fractionField x < leadingBit :=
  ⟨Nat.mod_lt _ (by decide), Nat.mod_lt _ (by decide)⟩

theorem inPlace_significand (x : Float) : InPlace (significand x).1 (significand x).2 := by
  obtain ⟨-, hfraction⟩ := fields_lt x
  unfold leadingBit at hfraction
  unfold significand leadingBit
  split <;> constructor <;> omega

/-- The significand settles both fields. -/
theorem fields_of_significand (h : significand x = significand y) :
    exponentField x = exponentField y ∧ fractionField x = fractionField y := by
  obtain ⟨-, hx⟩ := fields_lt x
  obtain ⟨-, hy⟩ := fields_lt y
  unfold significand at h
  split at h <;> split at h <;> rw [Prod.mk.injEq] at h <;> omega

theorem magnitude_eq (x : Float) : magnitude x = (significand x).1 * 2 ^ (significand x).2 := rfl

theorem magnitude_nonneg (x : Float) : 0 ≤ magnitude x :=
  mul_nonneg (Nat.cast_nonneg _) (zpow_two_pos _).le

theorem le_magnitude (hpos : 0 < magnitude x) : 2 ^ (-1074 : Int) ≤ magnitude x := by
  have hplace := inPlace_significand x
  rw [magnitude_eq] at hpos ⊢
  have hmantissa : (1 : Rat) ≤ (significand x).1 := by
    have hne : ((significand x).1 : Rat) ≠ 0 := left_ne_zero_of_mul hpos.ne'
    exact_mod_cast Nat.one_le_iff_ne_zero.mpr (by exact_mod_cast hne)
  calc (2 : Rat) ^ (-1074 : Int) ≤ 2 ^ (significand x).2 := zpow_two_le hplace.low
    _ ≤ (significand x).1 * 2 ^ (significand x).2 := le_mul_of_one_le_left (zpow_two_pos _).le hmantissa

/-- Sign and magnitude settle a number. -/
theorem eq_of_magnitude (hsign : signBit x = signBit y) (h : magnitude x = magnitude y) : x = y := by
  have horders := (inPlace_significand x).orders (inPlace_significand y)
  rw [← magnitude_eq, ← magnitude_eq, h] at horders
  have hsame : significand x = significand y := by
    cases hexponent : compare (significand x).2 (significand y).2 with
    | lt => simp [hexponent, Orders] at horders
    | gt => simp [hexponent, Orders] at horders
    | eq =>
      cases hmantissa : compare (significand x).1 (significand y).1 with
      | lt => simp [hexponent, hmantissa, Orders] at horders
      | gt => simp [hexponent, hmantissa, Orders] at horders
      | eq => exact Prod.ext (Nat.compare_eq_eq.mp hmantissa) (Int.compare_eq_eq.mp hexponent)
  obtain ⟨hexponent, hfraction⟩ := fields_of_significand hsame
  exact eq_of_fields hsign hexponent hfraction

theorem value?_of_isFinite (h : isFinite x = true) :
    value? x = some (if signBit x then -magnitude x else magnitude x) := if_pos h

/-- A positive value is one of a number without a sign. -/
theorem of_value?_pos (hq : 0 < q) (h : value? x = some q) : signBit x = false ∧ magnitude x = q := by
  unfold value? at h
  split at h
  · have hmagnitude := magnitude_nonneg x
    cases hsign : signBit x with
    | true =>
      simp only [hsign, if_true, Option.some.injEq] at h
      linarith
    | false => exact ⟨rfl, by simpa [hsign] using h⟩
  · simp at h

/-- The number that is not negative and nearest to what rounds to its magnitude. -/
theorem nearest?_eq (hfinite : isFinite x = true) (hsign : signBit x = false) (hpos : 0 < magnitude x)
    (hq : rounded q = magnitude x) : nearest? q = some x := by
  have hvalue : value? x = some (magnitude x) := by
    rw [value?_of_isFinite hfinite, hsign]
    rfl
  have hnearest : nearestValue? q = some (magnitude x) := by
    rw [nearestValue?, hq, if_pos (of_value?_eq_some hvalue).2]
  obtain ⟨y, hy, hyvalue⟩ := exists_nearest hnearest
  obtain ⟨hysign, hmagnitude⟩ := of_value?_pos hpos hyvalue
  rw [hy, eq_of_magnitude (hysign.trans hsign.symm) hmagnitude]

theorem signBit_zero : signBit 0 = false := by decide

theorem signBit_neg_zero : signBit (-0) = true := by decide

theorem magnitude_zero : magnitude 0 = 0 := by
  have h : significand 0 = (0, -1074) := by decide
  rw [magnitude_eq, h]
  simp

theorem magnitude_neg_zero : magnitude (-0) = 0 := by
  have h : significand (-0) = (0, -1074) := by decide
  rw [magnitude_eq, h]
  simp

/-- Zero is stored with a sign. -/
theorem eq_of_magnitude_eq_zero (h : magnitude x = 0) : (if signBit x then -0 else 0) = x := by
  cases hsign : signBit x with
  | true => exact eq_of_magnitude (signBit_neg_zero.trans hsign.symm) (magnitude_neg_zero.trans h.symm)
  | false => exact eq_of_magnitude (signBit_zero.trans hsign.symm) (magnitude_zero.trans h.symm)

theorem of_value?_neg (hq : q < 0) (h : value? x = some q) : signBit x = true ∧ magnitude x = -q := by
  unfold value? at h
  split at h
  · have hmagnitude := magnitude_nonneg x
    cases hsign : signBit x with
    | true => exact ⟨rfl, by simp [hsign, ← Option.some.inj h]⟩
    | false =>
      simp only [hsign, Bool.false_eq_true, if_false, Option.some.injEq] at h
      linarith
  · simp at h

theorem isFinite_of_value? (h : value? x = some q) : isFinite x = true := by
  unfold value? at h
  split at h
  · assumption
  · simp at h

/-- A negative number is another one with its sign changed. -/
theorem exists_neg (hfinite : isFinite x = true) (hsign : signBit x = true) (hpos : 0 < magnitude x) :
    ∃ y, isFinite y = true ∧ signBit y = false ∧ magnitude y = magnitude x ∧ -y = x := by
  have hvalue : value? x = some (-magnitude x) := by
    rw [value?_of_isFinite hfinite, hsign]
    rfl
  have hneg : value? (-x) = some (magnitude x) := by
    rw [value?_neg, hvalue]
    simp
  have hback : value? (- -x) = some (-magnitude x) := by
    rw [value?_neg, hneg]
    simp
  obtain ⟨hsame, hmagnitude⟩ := of_value?_pos hpos hneg
  obtain ⟨hsign', hmagnitude'⟩ := of_value?_neg (neg_lt_zero.mpr hpos) hback
  rw [neg_neg] at hmagnitude'
  exact ⟨-x, isFinite_of_value? hneg, hsame, hmagnitude,
    eq_of_magnitude (hsign'.trans hsign.symm) hmagnitude'⟩

theorem eq_infinity (hfinite : isFinite x = false) (hnumber : isNaN x = false) :
    (if signBit x then -infinity else infinity) = x := by
  have hlast : exponentField x = 2047 := by simpa [isFinite] using hfinite
  have hfraction : fractionField x = 0 := by simpa [isNaN, hlast] using hnumber
  cases hsign : signBit x with
  | true => exact eq_of_fields (by rw [hsign]; decide) (by rw [hlast]; decide) (by rw [hfraction]; decide)
  | false => exact eq_of_fields (by rw [hsign]; decide) (by rw [hlast]; decide) (by rw [hfraction]; decide)

theorem eq_notANumber (h : isNaN x = true) : x = notANumber := by
  obtain ⟨hlast, hfraction⟩ : exponentField x = 2047 ∧ fractionField x ≠ 0 := by simpa [isNaN] using h
  rw [exponentField_eq] at hlast
  rw [fractionField_eq] at hfraction
  have hpacked := x.toModel.valid.eq_packedNaN (BitVec.toNat_inj.mp hlast)
    fun hzero => hfraction (congrArg BitVec.toNat hzero)
  exact eq_of_bits (congrArg BitVec.toNat hpacked)

end MapLayers.Binary64
