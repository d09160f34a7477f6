import MapLayers.Color.Specifier
import MapLayers.Proofs.FloatBounds

/-!
# Parts of colors given by a hue

With a saturation and a lightness or value of at most one, every channel is a part of one. For hue and value
this holds exactly; for hue and lightness up to errors of rounding, which are too small to reach another byte.
-/

namespace MapLayers.Color

open Binary64

variable {x hue saturation lightness value : Float} {p q r : Rat}

/-- If `x` denotes a number, it is not negative. -/
def IsNonneg (x : Float) : Prop := ∀ q, value? x = some q → 0 ≤ q

theorem truncate_of_nonneg (h : 0 ≤ q) : truncate q = q.floor := if_neg (not_lt.mpr h)

theorem abs_sub_truncate (q : Rat) : |q - truncate q| < 1 := by
  rw [abs_lt]
  unfold truncate
  split
  · have hlow : q ≤ q.ceil := Rat.le_ceil
    have hhigh : (q.ceil : Rat) < q + 1 := Rat.ceil_lt
    constructor <;> linarith
  · have hlow := Rat.floor_le q
    have hhigh := Rat.lt_floor_add_one q
    push_cast at hhigh
    constructor <;> linarith

theorem representable_floor (h : Representable q) : Representable q.floor := by
  obtain ⟨m, e, hm, he, rfl⟩ := h
  rcases le_or_gt 0 e with hwhole | hfraction
  · have hint : (m : Rat) * 2 ^ e = ((m * 2 ^ e.toNat : Int) : Rat) := by
      push_cast
      rw [← zpow_natCast, Int.toNat_of_nonneg hwhole]
    exact ⟨m, e, hm, he, by rw [hint, Rat.floor_intCast]⟩
  · -- A number with a fraction is below `2 ^ 53`.
    have hpow : (2 : Rat) ^ e ≤ 1 := (zpow_two_le hfraction.le).trans_eq (zpow_zero 2)
    have hpos := zpow_two_pos e
    have hm' : |(m : Rat)| ≤ 2 ^ 53 := by exact_mod_cast hm
    obtain ⟨hlow, hhigh⟩ := abs_le.mp hm'
    refine representable_intCast (abs_le.mpr ⟨Rat.le_floor_iff.mpr ?_, ?_⟩)
    · push_cast
      nlinarith
    · have hfloor := Rat.floor_le ((m : Rat) * 2 ^ e)
      have : (((m : Rat) * 2 ^ e).floor : Rat) ≤ 2 ^ 53 := by nlinarith
      exact_mod_cast this

theorem fractional_nonneg (x : Float) : IsNonneg (fractional x) := by
  intro r hr
  unfold fractional at hr
  split at hr
  · simp [value?_notANumber] at hr
  · next q hx =>
    obtain ⟨hlow, -⟩ := abs_lt.mp (abs_sub_truncate q)
    dsimp only at hr
    split at hr
    · obtain ⟨s, t, hs, ht, rfl⟩ := add_inv hr
      obtain rfl := Option.some.inj (value?_one_lit.symm.trans ht)
      refine le_rounded representable_zero ?_
      rcases of_value?_nearest_getD hs with rfl | rfl
      · have hone : Representable (-1) := by simpa using representable_intCast (n := -1) (by decide)
        linarith [le_rounded hone hlow.le]
      · norm_num
    · next hnonneg =>
      split at hr
      · exact (Option.some.inj (value?_zero_lit.symm.trans hr)).le
      · rcases of_value?_nearest_getD hr with rfl | rfl
        · exact le_rounded representable_zero (not_lt.mp hnonneg)
        · exact le_rfl

theorem isPart_sector (hhue : IsNonneg hue) :
    IsPart (hue * 6 - (nearest? (truncate ((value? (hue * 6)).getD 0))).getD 0) := by
  refine .of_rounded fun r hr => ?_
  obtain ⟨s, n, hs, hn, rfl⟩ := sub_inv hr
  obtain ⟨hrepresentable, hsize⟩ := of_value?_eq_some hs
  have hs0 : 0 ≤ s := by
    obtain ⟨p, c, hp, hc, rfl⟩ := mul_inv hs
    obtain rfl := Option.some.inj ((value?_ofNat_lit 6 (by decide)).symm.trans hc)
    exact le_rounded representable_zero (mul_nonneg (hhue p hp) (by norm_num))
  have hlow := Rat.floor_le s
  have hhigh := Rat.lt_floor_add_one s
  push_cast at hhigh
  have hfloor0 : (0 : Rat) ≤ s.floor := by exact_mod_cast Rat.le_floor_iff.mpr (by exact_mod_cast hs0)
  have hfloor : |(s.floor : Rat)| < 2 ^ (1024 : Int) := by
    rw [abs_of_nonneg hfloor0]
    exact hlow.trans_lt ((le_abs_self s).trans_lt hsize)
  rw [hs, Option.getD_some, truncate_of_nonneg hs0,
    value?_nearest_getD (nearestValue?_of_representable (representable_floor hrepresentable) hfloor)]
    at hn
  obtain rfl := Option.some.inj hn
  exact ⟨_, rfl, by linarith, by linarith⟩

/-- Three parts of colors. -/
def AllThree (P : Float → Prop) (parts : Float × Float × Float) : Prop :=
  P parts.1 ∧ P parts.2.1 ∧ P parts.2.2

theorem ofValue_parts (hhue : IsNonneg hue) (hsaturation : IsPart saturation) (hvalue : IsPart value) :
    AllThree IsPart (ofValue hue saturation value) := by
  unfold ofValue
  split
  · exact ⟨hvalue, hvalue, hvalue⟩
  · have hf := isPart_sector hhue
    have hp := hvalue.mul hsaturation.rest
    have hq := hvalue.mul (hsaturation.mul hf).rest
    have ht := hvalue.mul (hsaturation.mul hf.rest).rest
    dsimp only
    split
    · exact ⟨hvalue, ht, hp⟩
    · exact ⟨hq, hvalue, hp⟩
    · exact ⟨hp, hvalue, ht⟩
    · exact ⟨hp, hq, hvalue⟩
    · exact ⟨ht, hp, hvalue⟩
    · exact ⟨hvalue, hp, hq⟩

/-- A part of one up to the rounding of a formula. -/
abbrev IsNearPart : Float → Prop := Between (-(1 / 2 ^ 40)) (1 + 1 / 2 ^ 40)

/-- The same within the errors of fewer steps. -/
abbrev IsEnd : Float → Prop := Between (-(1 / 2 ^ 45)) (1 + 1 / 2 ^ 45)

theorem IsEnd.isNearPart (h : IsEnd x) : IsNearPart x :=
  h.weaken (by norm_num) (by norm_num)

theorem isEnd_of_isPart (h : IsPart x) : IsEnd x := h.weaken (by norm_num) (by norm_num)

section Ramp

variable {a b k : Rat}

theorem ramp_exact (ha : -(1 / 2 ^ 45) ≤ a ∧ a ≤ 1 + 1 / 2 ^ 45) (hb : -(1 / 2 ^ 45) ≤ b ∧ b ≤ 1 + 1 / 2 ^ 45)
    (hk : 0 ≤ k ∧ k ≤ 1 / 6 + 1 / 2 ^ 50) :
    -(1 / 2 ^ 44) ≤ a + (b - a) * k * 6 ∧ a + (b - a) * k * 6 ≤ 1 + 1 / 2 ^ 44 := by
  obtain ⟨ha0, ha1⟩ := ha
  obtain ⟨hb0, hb1⟩ := hb
  obtain ⟨hk0, hk1⟩ := hk
  norm_num at ha0 ha1 hb0 hb1 hk1 ⊢
  rcases le_total a b with hab | hab <;> constructor <;> nlinarith

/-- Each step is off by its own rounding and by what it takes over from the one before. -/
theorem ramp_rounded (ha : -(1 / 2 ^ 45) ≤ a ∧ a ≤ 1 + 1 / 2 ^ 45)
    (hb : -(1 / 2 ^ 45) ≤ b ∧ b ≤ 1 + 1 / 2 ^ 45) (hk : 0 ≤ k ∧ k ≤ 1 / 6 + 1 / 2 ^ 50) :
    |rounded (a + rounded (rounded (rounded (b - a) * k) * 6)) - (a + (b - a) * k * 6)| ≤ 1 / 2 ^ 46 := by
  obtain ⟨ha0, ha1⟩ := ha
  obtain ⟨hb0, hb1⟩ := hb
  obtain ⟨hk0, hk1⟩ := hk
  norm_num at ha0 ha1 hb0 hb1 hk1
  have hspan := rounded_near (abs_le.mpr ⟨by linarith, by linarith⟩ : |b - a| ≤ 4)
  set span := rounded (b - a)
  have hpart : |span * k - (b - a) * k| ≤ 1 / 2 ^ 50 := by
    rw [← sub_mul, abs_mul, abs_of_nonneg hk0]
    have herror : |span - (b - a)| ≤ 1 / 2 ^ 50 := abs_le.mpr ⟨by linarith, by linarith⟩
    nlinarith [abs_nonneg (span - (b - a))]
  have hway : |(b - a) * k| ≤ 2 / 5 := by
    rw [abs_mul, abs_of_nonneg hk0]
    have hab : |b - a| ≤ 2 := abs_le.mpr ⟨by linarith, by linarith⟩
    nlinarith [abs_nonneg (b - a)]
  obtain ⟨hpart0, hpart1⟩ := abs_le.mp hpart
  obtain ⟨hway0, hway1⟩ := abs_le.mp hway
  have hshare := rounded_near (abs_le.mpr ⟨by linarith, by linarith⟩ : |span * k| ≤ 4)
  set share := rounded (span * k)
  have hsixth := rounded_near (abs_le.mpr ⟨by linarith, by linarith⟩ : |share * 6| ≤ 4)
  set sixth := rounded (share * 6)
  have hsum := rounded_near (abs_le.mpr ⟨by linarith, by linarith⟩ : |a + sixth| ≤ 4)
  norm_num at hpart0 hpart1 hshare hsixth hsum
  rw [abs_le]
  constructor <;> norm_num <;> linarith

end Ramp

theorem ramp_isNearPart {low high k : Float} (hlow : IsEnd low) (hhigh : IsEnd high)
    (hk : Between 0 (1 / 6 + 1 / 2 ^ 50) k) : IsNearPart (low + (high - low) * k * 6) := by
  intro r hr
  obtain ⟨a, u, ha, hu, rfl⟩ := add_inv hr
  obtain ⟨t, c, ht, hc, rfl⟩ := mul_inv hu
  obtain ⟨d, m, hd, hm, rfl⟩ := mul_inv ht
  obtain ⟨b, a', hb, ha', rfl⟩ := sub_inv hd
  obtain rfl := Option.some.inj (ha.symm.trans ha')
  obtain rfl := Option.some.inj ((value?_ofNat_lit 6 (by decide)).symm.trans hc)
  have hexact := ramp_exact (hlow a ha) (hhigh b hb) (hk m hm)
  have herror := abs_le.mp (ramp_rounded (hlow a ha) (hhigh b hb) (hk m hm))
  norm_num at hexact herror ⊢
  constructor <;> linarith

theorem value?_sixth : value? (1 / 6) = some (rounded (1 / 6)) :=
  value?_quotient value?_one_lit (value?_ofNat_lit 6 (by decide)) (by norm_num) (by norm_num) (by norm_num)

theorem value?_two_thirds : value? (2 / 3) = some (rounded (2 / 3)) :=
  value?_quotient (value?_ofNat_lit 2 (by decide)) (value?_ofNat_lit 3 (by decide)) (by norm_num)
    (by norm_num) (by norm_num)

/-- A channel lies between the two ends. -/
theorem hueChannel_isNearPart {low high : Float} (hlow : IsEnd low) (hhigh : IsEnd high) (hue : Float) :
    IsNearPart (hueChannel low high hue) := by
  have hfraction := fractional_nonneg hue
  unfold hueChannel
  dsimp only
  split_ifs with hfirst hsecond hthird
  · refine ramp_isNearPart hlow hhigh fun q hq => ⟨hfraction q hq, ?_⟩
    have hless := (lt_iff hq value?_sixth).mp hfirst
    have hnear := (rounded_near (q := 1 / 6) (by norm_num)).2
    linarith
  · exact hhigh.isNearPart
  · refine ramp_isNearPart hlow hhigh fun r hr => ?_
    obtain ⟨p, q, hp, hq, rfl⟩ := sub_inv hr
    obtain rfl := Option.some.inj (value?_two_thirds.symm.trans hp)
    have hless := (lt_iff hq value?_two_thirds).mp hthird
    have hmore : 1 / 2 ≤ q := not_lt.mp fun h => hsecond ((lt_iff hq value?_half).mpr h)
    have hnear := (rounded_bounds (q := 2 / 3) (b := 1) (by norm_num)).2
    have hrest := (rounded_bounds (q := rounded (2 / 3) - q) (b := 1) (by
      rw [abs_of_nonneg (by linarith)]
      norm_num at hnear
      linarith)).2
    refine ⟨le_rounded representable_zero (by linarith), ?_⟩
    norm_num at hnear hrest ⊢
    linarith
  · exact hlow.isNearPart

/-- The larger end of the channels. -/
def highEnd (lightness saturation : Float) : Float :=
  if lightness ≤ 0.5 then lightness * (1 + saturation)
  else lightness + saturation - lightness * saturation

/-- It lies between the lightness and one, and not above twice the lightness. -/
theorem highEnd_bounds {h : Rat} (hlightness : IsPart lightness) (hsaturation : IsPart saturation)
    (hh : value? (highEnd lightness saturation) = some h) : ∃ l, value? lightness = some l ∧
      l - 1 / 2 ^ 47 ≤ h ∧ h ≤ 1 + 1 / 2 ^ 47 ∧ h ≤ 2 * l + 1 / 2 ^ 47 := by
  unfold highEnd at hh
  split_ifs at hh with hdark
  · obtain ⟨l, c, hl, hc, rfl⟩ := mul_inv hh
    obtain ⟨hl0, hl1⟩ := hlightness l hl
    have hl2 := (le_iff hl value?_half).mp hdark
    obtain ⟨one, s, hone, hs, rfl⟩ := add_inv hc
    obtain rfl := Option.some.inj (value?_one_lit.symm.trans hone)
    obtain ⟨hs0, hs1⟩ := hsaturation s hs
    obtain ⟨hc0, hc1⟩ := rounded_mem (q := 1 + s) representable_one representable_two
      ⟨by linarith, by linarith⟩
    have hmore : l ≤ rounded (l * rounded (1 + s)) :=
      le_rounded (of_value?_eq_some hl).1 (by nlinarith)
    have hless : rounded (l * rounded (1 + s)) ≤ 1 := rounded_le representable_one (by nlinarith)
    have hnear := (rounded_near (q := l * rounded (1 + s)) (abs_le.mpr ⟨by nlinarith, by nlinarith⟩)).2
    norm_num at hnear ⊢
    exact ⟨l, hl, by linarith, by linarith, by nlinarith⟩
  · obtain ⟨sum, product, hsum, hproduct, rfl⟩ := sub_inv hh
    obtain ⟨l, s, hl, hs, rfl⟩ := add_inv hsum
    obtain ⟨hl0, hl1⟩ := hlightness l hl
    have hl2 : 1 / 2 ≤ l := (not_le.mp fun h => hdark ((le_iff hl value?_half).mpr h)).le
    obtain ⟨l', s', hl', hs', rfl⟩ := mul_inv hproduct
    obtain rfl := Option.some.inj (hl.symm.trans hl')
    obtain rfl := Option.some.inj (hs.symm.trans hs')
    obtain ⟨hs0, hs1⟩ := hsaturation s hs
    have hproduct0 : 0 ≤ l * s := mul_nonneg hl0 hs0
    have hproduct1 : l * s ≤ s := by nlinarith
    -- In exact numbers it is what is left of one after both rests.
    have hexact : (1 - l) * (1 - s) = 1 - (l + s - l * s) := by ring
    have hrests : 0 ≤ (1 - l) * (1 - s) := mul_nonneg (by linarith) (by linarith)
    have hs := rounded_near (q := l + s) (abs_le.mpr ⟨by linarith, by linarith⟩)
    have hp := rounded_near (q := l * s) (abs_le.mpr ⟨by linarith, by linarith⟩)
    have hd := rounded_near (q := rounded (l + s) - rounded (l * s))
      (abs_le.mpr ⟨by linarith, by linarith⟩)
    norm_num at hs hp hd ⊢
    exact ⟨l, hl, by linarith, by linarith, by linarith⟩

theorem highEnd_isEnd (hlightness : IsPart lightness) (hsaturation : IsPart saturation) :
    IsEnd (highEnd lightness saturation) := by
  intro h hh
  obtain ⟨l, hl, h0, h1, -⟩ := highEnd_bounds hlightness hsaturation hh
  obtain ⟨hl0, hl1⟩ := hlightness l hl
  norm_num at h0 h1 ⊢
  constructor <;> linarith

theorem lowEnd_isEnd (hlightness : IsPart lightness) (hsaturation : IsPart saturation) :
    IsEnd (2 * lightness - highEnd lightness saturation) := by
  intro r hr
  obtain ⟨t, h, ht, hh, rfl⟩ := sub_inv hr
  obtain ⟨l, hl, h0, h1, h2⟩ := highEnd_bounds hlightness hsaturation hh
  obtain ⟨hl0, hl1⟩ := hlightness l hl
  obtain ⟨two, l', htwo, hl', rfl⟩ := mul_inv ht
  obtain rfl := Option.some.inj ((value?_ofNat_lit 2 (by decide)).symm.trans htwo)
  obtain rfl := Option.some.inj (hl.symm.trans hl')
  push_cast
  have htwice := rounded_near (q := 2 * l) (abs_le.mpr ⟨by linarith, by linarith⟩)
  norm_num at h0 h1 h2 htwice
  have hrest := rounded_near (q := rounded (2 * l) - h) (abs_le.mpr ⟨by linarith, by linarith⟩)
  norm_num at hrest ⊢
  constructor <;> linarith

theorem ofLightness_parts (hue : Float) (hlightness : IsPart lightness) (hsaturation : IsPart saturation) :
    AllThree IsNearPart (ofLightness hue lightness saturation) := by
  have hlight := (isEnd_of_isPart hlightness).isNearPart
  have hhigh := highEnd_isEnd hlightness hsaturation
  have hlow := lowEnd_isEnd hlightness hsaturation
  unfold ofLightness
  split
  · exact ⟨hlight, hlight, hlight⟩
  · exact ⟨hueChannel_isNearPart hlow hhigh _, hueChannel_isNearPart hlow hhigh _,
      hueChannel_isNearPart hlow hhigh _⟩

end MapLayers.Color
