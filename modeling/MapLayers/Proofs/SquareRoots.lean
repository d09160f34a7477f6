import MapLayers.Proofs.FloatArithmetic

/-!
# Square roots of floating-point numbers

A square root is taken of a whole number that is shifted far enough for all the bits of the result. What
the whole root leaves says on which side of a half the exact one lies, so rounding keeps the order of
roots, although the exact ones are no rational numbers.
-/

namespace MapLayers.Binary64

open Float.Model (Format UnpackedFloat)
open Float.Model.UnpackedFloat

/-- How the exact root of `n` goes on behind its whole part. -/
def rootAccuracy (n : Nat) : Accuracy :=
  if n - n.sqrt * n.sqrt = 0 then .exact
  else .inexact (if n - n.sqrt * n.sqrt ≤ n.sqrt then .lt else .gt)

/-- The whole root of `n` with what is known of the rest. -/
def rootMantissa (n : Nat) : ExtendedMantissa := .ofMantissaAndAccuracy n.sqrt (rootAccuracy n)

variable {n : Nat} {d p q : Rat}

/-- The whole root is exact, or the exact one lies below or above the next half. -/
theorem rootMantissa_cases (n : Nat) :
    (rootMantissa n = ⟨n.sqrt, false, false⟩ ∧ (n : Rat) = (n.sqrt : Rat) ^ 2) ∨
    (rootMantissa n = ⟨n.sqrt, false, true⟩ ∧ (n.sqrt : Rat) ^ 2 < n ∧
      (n : Rat) < ((n.sqrt : Rat) + 1 / 2) ^ 2) ∨
    (rootMantissa n = ⟨n.sqrt, true, true⟩ ∧ ((n.sqrt : Rat) + 1 / 2) ^ 2 < n ∧
      (n : Rat) < ((n.sqrt : Rat) + 1) ^ 2) := by
  have hlow := Nat.sqrt_le n
  have hnext := Nat.lt_succ_sqrt n
  unfold rootMantissa rootAccuracy
  generalize n.sqrt = root at hlow hnext ⊢
  have hhalf : ((root : Rat) + 1 / 2) ^ 2 = root * root + root + 1 / 4 := by ring
  have hwhole : ((root : Rat) + 1) ^ 2 = (root + 1 : Nat) * (root + 1 : Nat) := by push_cast; ring
  split
  · next hzero =>
    refine .inl ⟨rfl, ?_⟩
    rw [pow_two]
    exact_mod_cast (show n = root * root by omega)
  · next hpos =>
    right
    split
    · next hbelow =>
      refine .inl ⟨rfl, ?_, ?_⟩
      · rw [pow_two]
        exact_mod_cast (show root * root < n by omega)
      · have : (n : Rat) ≤ root * root + root := by exact_mod_cast (show n ≤ root * root + root by omega)
        linarith
    · next habove =>
      refine .inr ⟨rfl, ?_, ?_⟩
      · have : (root : Rat) * root + root + 1 ≤ n := by
          exact_mod_cast (show root * root + root + 1 ≤ n by omega)
        linarith
      · rw [hwhole]
        exact_mod_cast hnext

theorem exists_root_le (hn : 0 < n) (hd : 0 ≤ d) (h : (n : Rat) ≤ d ^ 2) :
    ∃ t, 0 < t ∧ t ≤ d ∧ StandsFor (rootMantissa n) t := by
  have hroot : (0 : Rat) < n.sqrt := by exact_mod_cast Nat.sqrt_pos.mpr hn
  obtain ⟨hm, hexact⟩ | ⟨hm, hlow, -⟩ | ⟨hm, hlow, -⟩ := rootMantissa_cases n
  · exact ⟨n.sqrt, hroot, le_of_pow_le_pow_left₀ two_ne_zero hd (hexact ▸ h), by rw [hm]; rfl⟩
  · have hlt : (n.sqrt : Rat) < d := lt_of_pow_lt_pow_left₀ 2 hd (hlow.trans_le h)
    refine ⟨min d (n.sqrt + 1 / 4), lt_min (hroot.trans hlt) (by linarith), min_le_left _ _, ?_⟩
    rw [hm]
    exact ⟨lt_min hlt (by linarith), (min_le_right _ _).trans_lt (by linarith)⟩
  · have hlt : (n.sqrt : Rat) + 1 / 2 < d := lt_of_pow_lt_pow_left₀ 2 hd (hlow.trans_le h)
    refine ⟨min d (n.sqrt + 3 / 4), lt_min (by linarith) (by linarith), min_le_left _ _, ?_⟩
    rw [hm]
    exact ⟨lt_min hlt (by linarith), (min_le_right _ _).trans_lt (by linarith)⟩

theorem exists_le_root (hn : 0 < n) (h : d ^ 2 ≤ n) :
    ∃ t, 0 < t ∧ d ≤ t ∧ StandsFor (rootMantissa n) t := by
  have hroot : (0 : Rat) < n.sqrt := by exact_mod_cast Nat.sqrt_pos.mpr hn
  obtain ⟨hm, hexact⟩ | ⟨hm, -, hhigh⟩ | ⟨hm, -, hhigh⟩ := rootMantissa_cases n
  · exact ⟨n.sqrt, hroot, le_of_pow_le_pow_left₀ two_ne_zero hroot.le (hexact ▸ h), by rw [hm]; rfl⟩
  · have hlt : d < (n.sqrt : Rat) + 1 / 2 :=
      lt_of_pow_lt_pow_left₀ 2 (by linarith) (h.trans_lt hhigh)
    refine ⟨max d (n.sqrt + 1 / 4), lt_max_of_lt_right (by linarith), le_max_left _ _, ?_⟩
    rw [hm]
    exact ⟨lt_max_of_lt_right (by linarith), max_lt hlt (by linarith)⟩
  · have hlt : d < (n.sqrt : Rat) + 1 := lt_of_pow_lt_pow_left₀ 2 (by linarith) (h.trans_lt hhigh)
    refine ⟨max d (n.sqrt + 3 / 4), lt_max_of_lt_right (by linarith), le_max_left _ _, ?_⟩
    rw [hm]
    exact ⟨lt_max_of_lt_right (by linarith), max_lt hlt (by linarith)⟩

theorem InPlace.exponent_le {m n : Nat} {e f : Int} (h : InPlace m e) (h' : InPlace n f)
    (hsame : (m : Rat) * 2 ^ e = n * 2 ^ f) : f ≤ e := by
  by_contra hlt
  exact (h.lt_of_exponent h' (not_le.mp hlt)).ne hsame

theorem Canonical.finite_of_pos {u : UnpackedFloat} (hu : Canonical u) (hp : ratOf? u = some p)
    (hpos : 0 < p) : ∃ (m : Nat) (e : Int) (hm : 0 < m),
      u = .finite .positive m e hm ∧ InPlace m e ∧ p = m * 2 ^ e := by
  rcases hu.cases_rat hp with ⟨s, -, rfl⟩ | ⟨s, m, e, hm, rfl, hplace, -, rfl⟩
  · exact absurd hpos (lt_irrefl 0)
  · cases s with
    | positive => exact ⟨m, e, hm, rfl, hplace, rfl⟩
    | negative =>
      have hvalue : (0 : Rat) < m * 2 ^ e := mul_pos (by exact_mod_cast hm) (zpow_two_pos e)
      simp only [signed] at hpos
      linarith

theorem Canonical.eq_of_ratOf? {u v : UnpackedFloat} (hu : Canonical u) (hv : Canonical v)
    (hp : ratOf? u = some p) (hq : ratOf? v = some p) (hpos : 0 < p) : u = v := by
  obtain ⟨m, e, hm, rfl, hplace, rfl⟩ := hu.finite_of_pos hp hpos
  obtain ⟨n, f, hn, rfl, hplace', hsame⟩ := hv.finite_of_pos hq hpos
  obtain rfl : e = f := le_antisymm (hplace'.exponent_le hplace hsame.symm) (hplace.exponent_le hplace' hsame)
  obtain rfl : m = n := by exact_mod_cast mul_right_cancel₀ (zpow_two_pos e).ne' hsame
  rfl

theorem sqrtCore_spec {m : Nat} (hm : 0 < m) (e : Int) : ∃ (k : Nat) (g : Int),
    sqrtCore .binary64 m e = ((m <<< k).sqrt, g, rootAccuracy (m <<< k)) ∧ 2 * g + k = e ∧
      HasBits (m <<< k).sqrt g := by
  unfold sqrtCore
  dsimp only
  have hhalf (i : Int) : i.ediv 2 = i / 2 := rfl
  have htarget : Format.binary64.targetExponent ((Float.Model.totalExponent m e + 1) / 2) =
      max ((m.log2 + 2 + e) / 2 - 53) (-1074) := by
    unfold Format.targetExponent Float.Model.totalExponent Format.minExponent Format.mantissaBits
    norm_num
    omega
  rw [hhalf, hhalf, htarget]
  generalize hg : min (e / 2) (max (((m.log2 : Int) + 2 + e) / 2 - 53) (-1074)) = g
  refine ⟨(e - 2 * g).toNat, g, rfl, by omega, ?_⟩
  generalize hk : (e - 2 * g).toNat = k
  rcases le_or_gt g (-1074) with hsmall | hlarge
  · exact .inr hsmall
  · left
    have hlog := log2_shiftLeft hm k
    have hle := Nat.log2_self_le (show m <<< k ≠ 0 by rw [Nat.shiftLeft_eq]; positivity)
    have hroot : 2 ^ 52 ≤ (m <<< k).sqrt := by
      rw [Nat.le_sqrt', ← pow_mul]
      exact (Nat.pow_le_pow_right (by decide) (by omega)).trans hle
    exact (Nat.le_log2 (by omega)).mpr hroot

/-- `u` is stored as a number rounded from above the square root of `p`, and as one from below it, however
near to it they are asked for. -/
structure RoundsRoot (u : UnpackedFloat) (p : Rat) : Prop where
  below : ∀ d, 0 ≤ d → p ≤ d ^ 2 → ∃ t, 0 ≤ t ∧ t ≤ d ∧ Rounds u t
  above : ∀ d, d ^ 2 ≤ p → ∃ t, d ≤ t ∧ Rounds u t

theorem sqrt_finite_roundsRoot {m : Nat} {e : Int} (hm : 0 < m) :
    RoundsRoot (UnpackedFloat.sqrt .binary64 (.finite .positive m e hm)) (m * 2 ^ e) := by
  obtain ⟨k, g, hcore, hexponent, hbits⟩ := sqrtCore_spec hm e
  have hg := zpow_two_pos g
  have hn : 0 < m <<< k := by
    rw [Nat.shiftLeft_eq]
    positivity
  have hvalue : (m : Rat) * 2 ^ e = (m <<< k : Nat) * (2 ^ g) ^ 2 := by
    rw [← shiftLeft_value m k e, show e - k = g + g by omega, zpow_add₀ (by norm_num), pow_two]
  have hsqrt {t : Rat} (ht : 0 < t) (hstands : StandsFor (rootMantissa (m <<< k)) t) :
      Rounds (UnpackedFloat.sqrt .binary64 (.finite .positive m e hm)) (t * 2 ^ g) := by
    simp only [UnpackedFloat.sqrt, hcore]
    exact roundWithAccuracy_rounds ht hstands hbits
  have hscaled (d : Rat) : (d / 2 ^ g) ^ 2 * (2 ^ g) ^ 2 = d ^ 2 := by
    rw [← mul_pow, div_mul_cancel₀ d hg.ne']
  rw [hvalue]
  constructor
  · intro d hd hle
    rw [← hscaled d] at hle
    obtain ⟨t, ht, htd, hstands⟩ := exists_root_le hn (div_nonneg hd hg.le)
      (le_of_mul_le_mul_right hle (by positivity))
    exact ⟨t * 2 ^ g, (mul_pos ht hg).le, (le_div_iff₀ hg).mp htd, hsqrt ht hstands⟩
  · intro d hle
    rw [← hscaled d] at hle
    obtain ⟨t, ht, htd, hstands⟩ := exists_le_root hn (le_of_mul_le_mul_right hle (by positivity))
    exact ⟨t * 2 ^ g, (div_le_iff₀ hg).mp htd, hsqrt ht hstands⟩

theorem sqrt_roundsRoot {u : UnpackedFloat} (hu : Canonical u) (hp : ratOf? u = some p)
    (hpos : 0 ≤ p) : RoundsRoot (UnpackedFloat.sqrt .binary64 u) p := by
  rcases hpos.eq_or_lt with rfl | hpos
  · rcases hu.cases_rat hp with ⟨s, rfl, -⟩ | ⟨s, m, e, hm, -, -, -, hzero⟩
    · constructor
      · intro d hd _
        exact ⟨0, le_rfl, hd, rounds_zero s rounded_zero⟩
      · intro d hd
        obtain rfl : d = 0 := pow_eq_zero_iff two_ne_zero |>.mp (le_antisymm hd (sq_nonneg d))
        exact ⟨0, le_rfl, rounds_zero s rounded_zero⟩
    · have hsize := abs_signed s (m * 2 ^ e)
      have hpow := zpow_two_pos e
      have hvalue : (0 : Rat) < |(m : Rat) * 2 ^ e| := by positivity
      rw [← hzero, abs_zero] at hsize
      linarith
  · obtain ⟨m, e, hm, rfl, -, rfl⟩ := hu.finite_of_pos hp hpos
    exact sqrt_finite_roundsRoot hm

variable {x y : Float}

theorem Canonical.abs {u : UnpackedFloat} (hu : Canonical u) : Canonical u.abs := by
  cases hu with
  | notANumber => exact .notANumber
  | infinity s => exact .infinity _
  | zero s => exact .zero _
  | finite s m e hm hplace hhigh => exact .finite _ m e hm hplace hhigh

theorem ratOf?_abs (u : UnpackedFloat) : ratOf? u.abs = (ratOf? u).map (|·|) := by
  cases u with
  | finite s m e hm =>
    have hpow := zpow_two_pos e
    have hvalue : (0 : Rat) ≤ m * 2 ^ e := by positivity
    cases s <;> simp [UnpackedFloat.abs, ratOf?, cast_apply, signed, abs_of_nonneg hvalue]
  | _ => simp [UnpackedFloat.abs, ratOf?]

theorem value?_abs (x : Float) : value? x.abs = (value? x).map (|·|) := by
  rw [value?_eq x.abs, value?_eq x, ← ratOf?_abs]
  exact congrArg ratOf? (unpack_pack (canonical x).abs)

theorem sign_of_signBit (hx : value? x = some p) :
    if signBit x then p ≤ 0 else 0 ≤ p := by
  have hsize : 0 ≤ magnitude x := by
    unfold magnitude
    positivity
  unfold value? at hx
  split at hx
  · rw [Option.some.injEq] at hx
    subst hx
    split
    · linarith
    · exact hsize
  · simp at hx

/-- The root of a number in range is in range, and it is on the same side of every number as the exact one,
or rounded to it. -/
theorem value?_sqrt (hx : value? x = some p) (hp : 0 ≤ p) :
    ∃ r, value? x.sqrt = some r ∧ 0 ≤ r ∧ (∀ d, 0 ≤ d → p ≤ d ^ 2 → r ≤ rounded d) ∧
      ∀ d, d ^ 2 ≤ p → rounded d ≤ r := by
  have hroot := sqrt_roundsRoot (canonical x) (value?_eq x ▸ hx) hp
  have hsqrt : value? x.sqrt = ratOf? (Float.Model.pack
      (UnpackedFloat.sqrt .binary64 x.toModel.unpack)).unpack := value?_eq x.sqrt
  -- The root is in range since 1 or the number itself bounds it.
  have hbound : ∃ d, 0 ≤ d ∧ p ≤ d ^ 2 ∧ Representable d ∧ d < 2 ^ (1024 : Int) := by
    rcases le_total 1 p with hone | hone
    · exact ⟨p, hp, by nlinarith, (of_value?_eq_some hx).1, lt_of_value?_eq_some hx⟩
    · exact ⟨1, zero_le_one, by linarith, representable_one, one_lt_zpow₀ (by norm_num) (by decide)⟩
  obtain ⟨d, hd, hpd, hrepresentable, hrange⟩ := hbound
  obtain ⟨t, ht, htd, hrounds⟩ := hroot.below d hd hpd
  have hr0 := le_rounded representable_zero ht
  have hr : value? x.sqrt = some (rounded t) := by
    rw [hsqrt, hrounds]
    exact nearestValue?_of_le hr0 (rounded_le hrepresentable htd) hrange
  have hsame {t' : Rat} (hrounds' : Rounds (UnpackedFloat.sqrt .binary64 x.toModel.unpack) t') :
      rounded t = rounded t' := eq_of_nearestValue? (hrounds'.symm.trans (hsqrt.symm.trans hr))
  refine ⟨rounded t, hr, hr0, fun d' hd' hle => ?_, fun d' hle => ?_⟩
  · obtain ⟨t', -, htd', hrounds'⟩ := hroot.below d' hd' hle
    exact hsame hrounds' ▸ rounded_mono htd'
  · obtain ⟨t', htd', hrounds'⟩ := hroot.above d' hle
    exact hsame hrounds' ▸ rounded_mono htd'

/-- A larger number has a larger root, as far as there are numbers for it. -/
theorem value?_sqrt_mono (hx : value? x = some p) (hy : value? y = some q) (hp : 0 ≤ p)
    (hle : p ≤ q) : ∃ r s, value? x.sqrt = some r ∧ value? y.sqrt = some s ∧ 0 ≤ r ∧ r ≤ s := by
  obtain ⟨r, hr, hr0, hbelow, -⟩ := value?_sqrt hx hp
  obtain ⟨s, hs, -, hbelow', habove⟩ := value?_sqrt hy (hp.trans hle)
  refine ⟨r, s, hr, hs, hr0, ?_⟩
  rcases hle.lt_or_eq with hlt | rfl
  · obtain ⟨d, hd, hpd, hdq⟩ := exists_rat_pow_btwn two_ne_zero hlt (hp.trans_lt hlt)
    exact (hbelow d hd.le hpd.le).trans (habove d hdq.le)
  · rcases hp.eq_or_lt with rfl | hpos
    · exact (hbelow 0 le_rfl (by norm_num)).trans (habove 0 (by norm_num))
    · -- Equal numbers are stored alike, unless they are zeros.
      have hform := (canonical x).eq_of_ratOf? (canonical y) (value?_eq x ▸ hx) (value?_eq y ▸ hy) hpos
      have hsame : value? x.sqrt = value? y.sqrt := by
        rw [value?_eq, value?_eq]
        change ratOf? (Float.Model.pack (UnpackedFloat.sqrt .binary64 x.toModel.unpack)).unpack =
          ratOf? (Float.Model.pack (UnpackedFloat.sqrt .binary64 y.toModel.unpack)).unpack
        rw [hform]
      rw [hr, hs] at hsame
      exact (Option.some.inj hsame).le

end MapLayers.Binary64
