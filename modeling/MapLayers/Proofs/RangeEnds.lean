import MapLayers.Proofs.Rounding

/-!
# Ends of ranges in rounded arithmetic

Scales compute a size from the two ends of their range, by interpolation or in even steps. Rounded
arithmetic can lead past the upper end, but by little, and interpolation between numbers that are not
negative and not large does not lead past a whole number.
-/

namespace MapLayers.Binary64

variable {l h w q p : Rat}

/-- What rounding may add to a size between `l` and `h`. -/
def slack (l h : Rat) : Rat := (|l| + |h| + 1) / 2 ^ 49

theorem abs_sub_rounded_le_coarse (q : Rat) : |q - rounded q| ≤ |q| / 2 ^ 53 + 1 / 2 ^ 60 := by
  have hsmall : (2 : Rat) ^ (-1075 : Int) ≤ 1 / 2 ^ 60 :=
    (zpow_two_le (show (-1075 : Int) ≤ -60 by decide)).trans_eq (by norm_num)
  exact (abs_sub_rounded_le q).trans (add_le_add le_rfl hsmall)

theorem abs_rounded_sub_le {q p d : Rat} (h : |q - p| ≤ d) :
    |rounded q - p| ≤ d + (|p| + d) / 2 ^ 53 + 1 / 2 ^ 60 := by
  have hround := abs_sub_rounded_le_coarse q
  have hsize : |q| ≤ |p| + d := by
    have := abs_add_le (q - p) p
    rw [sub_add_cancel] at this
    linarith
  have hsplit : |rounded q - p| ≤ |q - rounded q| + |q - p| := by
    have := abs_sub_le (rounded q) q p
    rwa [abs_sub_comm (rounded q) q] at this
  have : |q| / 2 ^ 53 ≤ (|p| + d) / 2 ^ 53 := by
    exact div_le_div_of_nonneg_right hsize (by norm_num)
  linarith

/-- The range of an interpolation, as it is computed from two numbers. -/
def IsSpan (l h w : Rat) : Prop := w = rounded (h - l) ∨ w = rounded (rounded h - rounded l)

theorem IsSpan.nonneg (hw : IsSpan l h w) (hle : l ≤ h) : 0 ≤ w := by
  rcases hw with rfl | rfl
  · exact rounded_zero ▸ rounded_mono (by linarith)
  · exact rounded_zero ▸ rounded_mono (by linarith [rounded_mono hle])

theorem IsSpan.near (hw : IsSpan l h w) :
    |w - (h - l)| ≤ 3 * (|l| + |h|) / 2 ^ 53 + 1 / 2 ^ 58 := by
  have hspan : |h - l| ≤ |l| + |h| := by
    have := abs_sub h l
    linarith
  rcases hw with rfl | rfl
  · have := abs_rounded_sub_le (q := h - l) (p := h - l) (d := 0) (by simp)
    have h0 := abs_nonneg l
    have h1 := abs_nonneg h
    linarith
  · have hh := abs_sub_rounded_le_coarse h
    have hl := abs_sub_rounded_le_coarse l
    have hd : |rounded h - rounded l - (h - l)| ≤ (|l| + |h|) / 2 ^ 53 + 2 / 2 ^ 60 := by
      have : rounded h - rounded l - (h - l) = (l - rounded l) - (h - rounded h) := by ring
      rw [this]
      have := abs_sub (l - rounded l) (h - rounded h)
      linarith
    have := abs_rounded_sub_le hd
    have h0 := abs_nonneg l
    have h1 := abs_nonneg h
    linarith

theorem IsSpan.end_le (hw : IsSpan l h w) : rounded (rounded l + w) ≤ h + slack l h := by
  have hl := abs_sub_rounded_le_coarse l
  have hnear := hw.near
  have hd : |rounded l + w - h| ≤ 4 * (|l| + |h|) / 2 ^ 53 + 1 / 2 ^ 57 := by
    have : rounded l + w - h = w - (h - l) - (l - rounded l) := by ring
    rw [this]
    have := abs_sub (w - (h - l)) (l - rounded l)
    have h0 := abs_nonneg h
    linarith
  have := le_abs_self (rounded (rounded l + w) - h)
  have := abs_rounded_sub_le hd
  have h0 := abs_nonneg l
  have h1 := abs_nonneg h
  unfold slack
  linarith

theorem unitExponent_le {e : Int} (hq : 0 < q) (h : q < 2 ^ (e + 53)) (he : -1074 ≤ e) :
    unitExponent q ≤ e := by
  have hlow := (floorLog2_spec hq).1.trans_lt h
  rw [zpow_two_lt_iff] at hlow
  rw [unitExponent, abs_of_pos hq]
  omega

/-- A whole number is an even number of the units of what lies half a unit above it, unless it is large. -/
theorem exists_even_units {n : Int} (hn : n ≤ 2 ^ 52) (hq : 0 < q)
    (hhigh : q ≤ n + 1 / 2) : ∃ k : Int, k % 2 = 0 ∧ (n : Rat) = k * unit q := by
  have hn' : (n : Rat) ≤ 2 ^ 52 := by exact_mod_cast hn
  have hexponent : unitExponent q ≤ 0 := by
    refine unitExponent_le hq ?_ (by decide)
    norm_num
    linarith
  rcases hexponent.lt_or_eq with hneg | hzero
  · refine ⟨n * 2 ^ (-unitExponent q).toNat, ?_, ?_⟩
    · obtain ⟨d, hd⟩ : ∃ d, (-unitExponent q).toNat = d + 1 :=
        ⟨(-unitExponent q).toNat - 1, by omega⟩
      rw [hd, pow_succ, ← mul_assoc]
      omega
    · push_cast
      rw [mul_assoc, unit, ← zpow_natCast, ← zpow_two_add, Int.toNat_of_nonneg (by omega)]
      simp
  -- With units of one, the number is the first that has them.
  · have hunit : unit q = 1 := by rw [unit, hzero, zpow_zero]
    have hleast := units_le_abs hq.ne' (by omega)
    rw [hunit, abs_of_pos hq] at hleast
    have hn52 : n = 2 ^ 52 := by
      have : (2 ^ 52 - 1 : Rat) < n := by linarith
      have : 2 ^ 52 - 1 < n := by exact_mod_cast this
      omega
    exact ⟨n, by omega, by rw [hunit, mul_one]⟩

/-- Among numbers that are not negative and not large, the end of a range is never passed. -/
theorem end_le_ceil (hl : 0 ≤ l) (hle : l ≤ h) {n : Int} (hn : n ≤ 2 ^ 52) (hh : h ≤ n) :
    rounded (l + rounded (h - l)) ≤ n := by
  have hspan : 0 ≤ h - l := by linarith
  rcases le_or_gt (l + rounded (h - l)) n with hmet | hpassed
  · refine rounded_le (representable_intCast ?_) hmet
    have : (0 : Rat) ≤ n := by linarith
    have : 0 ≤ n := by exact_mod_cast this
    rw [abs_of_nonneg this]
    omega
  · have hpos : 0 < h - l := by
      rcases hspan.eq_or_lt with hzero | hpos
      · rw [← hzero, rounded_zero] at hpassed
        linarith
      · exact hpos
    have hq : 0 < l + rounded (h - l) := by linarith
    have hhalf := (abs_le.mp (abs_sub_rounded (h - l))).1
    have hunits : unit (h - l) ≤ unit (l + rounded (h - l)) := by
      refine unit_mono (abs_pos.mpr hpos.ne') ?_
      rw [abs_of_pos hpos, abs_of_pos hq]
      linarith
    have hone : unit (h - l) ≤ 1 := by
      have hn' : (n : Rat) ≤ 2 ^ 52 := by exact_mod_cast hn
      have : unitExponent (h - l) ≤ 0 := by
        refine unitExponent_le hpos ?_ (by decide)
        norm_num
        linarith
      exact zpow_zero (2 : Rat) ▸ zpow_two_le this
    obtain ⟨k, heven, hk⟩ := exists_even_units hn hq (by linarith)
    rw [hk]
    refine rounded_le_of_even heven ?_
    rw [← hk]
    linarith

theorem steps_le {d g G : Rat} (hd : 0 ≤ d) (hg : 0 ≤ g) (hgG : g ≤ G) (hG : 1 ≤ G)
    (hsize : g ≤ 2 ^ (1024 : Int)) :
    rounded (rounded (d / G) * g) ≤ d + d / 2 ^ 51 + 1 / 2 ^ 50 := by
  have hq : 0 ≤ d / G := div_nonneg hd (by linarith)
  have hstep := (abs_le.mp (abs_sub_rounded_le (d / G))).1
  rw [abs_of_nonneg hq] at hstep
  have hstep0 := le_rounded representable_zero hq
  have hgd : d / G * g ≤ d := by
    rw [div_mul_eq_mul_div, div_le_iff₀ (by linarith)]
    exact mul_le_mul_of_nonneg_left hgG hd
  have hsmall : (2 : Rat) ^ (-1075 : Int) * g ≤ 1 / 2 ^ 51 := by
    have hη := zpow_two_pos (-1075)
    calc (2 : Rat) ^ (-1075 : Int) * g ≤ 2 ^ (-1075 : Int) * 2 ^ (1024 : Int) :=
          mul_le_mul_of_nonneg_left hsize hη.le
      _ = 2 ^ (-51 : Int) := by rw [← zpow_two_add]; rfl
      _ = 1 / 2 ^ 51 := by norm_num
  have hall : rounded (d / G) * g ≤ d + d / 2 ^ 53 + 1 / 2 ^ 51 := by
    have := mul_le_mul_of_nonneg_right
      (show rounded (d / G) ≤ d / G + d / G / 2 ^ 53 + 2 ^ (-1075 : Int) by linarith) hg
    have hsplit : (d / G + d / G / 2 ^ 53 + 2 ^ (-1075 : Int)) * g =
        d / G * g + d / G * g / 2 ^ 53 + 2 ^ (-1075 : Int) * g := by ring
    linarith
  have hround := (abs_le.mp (abs_sub_rounded_le_coarse (rounded (d / G) * g))).1
  rw [abs_of_nonneg (mul_nonneg hstep0 hg)] at hround
  linarith

theorem rounded_bounds {q b : Rat} (h : |q| ≤ b) :
    q - (b / 2 ^ 53 + 1 / 2 ^ 60) ≤ rounded q ∧ rounded q ≤ q + (b / 2 ^ 53 + 1 / 2 ^ 60) := by
  have hround := abs_le.mp (abs_sub_rounded_le_coarse q)
  have : |q| / 2 ^ 53 ≤ b / 2 ^ 53 := div_le_div_of_nonneg_right h (by norm_num)
  constructor <;> linarith

/-- The last of the steps between two ends passes the end by what rounding adds at most. -/
theorem lastStep_le {d p : Rat} (hd : IsSpan l h d) (hle : l ≤ h) (hp0 : 0 ≤ p)
    (hp : p ≤ d + d / 2 ^ 51 + 1 / 2 ^ 50) :
    rounded (rounded (rounded l + rounded (rounded (d - p) * (1 / 2))) + p) ≤ h + slack l h := by
  have hd0 := hd.nonneg hle
  have hnear := abs_le.mp hd.near
  have habsl := abs_le.mp (le_refl |l|)
  have habsh := abs_le.mp (le_refl |h|)
  have hl := rounded_bounds (le_refl |l|)
  generalize ht : |l| + |h| = t at *
  have hlt : |l| ≤ t := by linarith [abs_nonneg h]
  have ht0 : 0 ≤ t := by linarith [abs_nonneg l]
  -- All numbers on the way are of the size of the two ends.
  have hrest := rounded_bounds (q := d - p) (b := 1.01 * t + 1 / 2 ^ 40) (by
    rw [abs_le]
    constructor <;> linarith)
  generalize rounded (d - p) = rest at *
  have hoffset := rounded_bounds (q := rest * (1 / 2)) (b := 0.6 * t + 1 / 2 ^ 40) (by
    rw [abs_le]
    constructor <;> linarith)
  generalize rounded (rest * (1 / 2)) = offset at *
  have hstart := rounded_bounds (q := rounded l + offset) (b := 1.7 * t + 1 / 2 ^ 39) (by
    rw [abs_le]
    constructor <;> linarith)
  generalize rounded (rounded l + offset) = start at *
  have hend := (rounded_bounds (q := start + p) (b := 2.8 * t + 1 / 2 ^ 38) (by
    rw [abs_le]
    constructor <;> linarith)).2
  unfold slack
  rw [ht]
  linarith

end MapLayers.Binary64
