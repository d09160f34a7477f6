import MapLayers.Proofs.FloatRounding
import MapLayers.Proofs.Results

/-!
# Floating-point arithmetic in exact numbers

The value of a sum, a difference, a product or a quotient is the exact one rounded, as long as it stays in
range and the operands are finite. Whole numbers are rounded the same way when they become floating-point
ones.
-/

namespace MapLayers.Binary64

open Float.Model (Format UnpackedFloat)
open Float.Model.UnpackedFloat

variable {x y : Float} {p q : Rat}

/-- An unpacked number that denotes no rational. -/
theorem ratOf?_eq_none {u : UnpackedFloat} :
    ratOf? u = none ↔ u = .notANumber ∨ ∃ s, u = .infinity s := by
  cases u <;> simp [ratOf?]

/-- What is no rational is stored as it is. -/
theorem ratOf?_unpack_pack_of_none {u : UnpackedFloat} (h : ratOf? u = none) :
    ratOf? (Float.Model.pack u).unpack = none := by
  rcases ratOf?_eq_none.mp h with rfl | ⟨s, rfl⟩
  · rw [unpack_pack .notANumber, h]
  · rw [unpack_pack (.infinity s), h]

theorem ratOf?_add_of_none {u v : UnpackedFloat} (h : ratOf? u = none ∨ ratOf? v = none) :
    ratOf? (UnpackedFloat.add .binary64 u v) = none := by
  cases u <;> cases v <;> simp [ratOf?] at h <;> simp only [UnpackedFloat.add] <;>
    (try split) <;> rfl

theorem ratOf?_mul_of_none {u v : UnpackedFloat} (h : ratOf? u = none ∨ ratOf? v = none) :
    ratOf? (UnpackedFloat.mul .binary64 u v) = none := by
  cases u <;> cases v <;> simp [ratOf?] at h <;> rfl

theorem ratOf?_div_of_none {u v : UnpackedFloat} (h : ratOf? u = none) :
    ratOf? (UnpackedFloat.div .binary64 u v) = none := by
  cases u <;> cases v <;> simp [ratOf?] at h <;> rfl

/-- An operation that rounds, and gives no rational if one of its operands is none. -/
theorem value?_operation {f : UnpackedFloat → UnpackedFloat → UnpackedFloat}
    {exact : Rat → Rat → Rat} {z : Float}
    (hz : z.toModel = Float.Model.pack (f x.toModel.unpack y.toModel.unpack))
    (hnone : ∀ {u v}, ratOf? u = none ∨ ratOf? v = none → ratOf? (f u v) = none)
    (hrounds : ∀ {u v p q}, Canonical u → Canonical v → ratOf? u = some p → ratOf? v = some q →
      Rounds (f u v) (exact p q)) :
    value? z = (value? x).bind fun p => (value? y).bind fun q => nearestValue? (exact p q) := by
  rw [value?_eq z, hz, value?_eq x, value?_eq y]
  cases hp : ratOf? x.toModel.unpack with
  | none => exact ratOf?_unpack_pack_of_none (hnone (.inl hp))
  | some p =>
    cases hq : ratOf? y.toModel.unpack with
    | none => exact ratOf?_unpack_pack_of_none (hnone (.inr hq))
    | some q => exact hrounds (canonical x) (canonical y) hp hq

theorem value?_add (x y : Float) :
    value? (x + y) = (value? x).bind fun p => (value? y).bind fun q => nearestValue? (p + q) :=
  value?_operation rfl ratOf?_add_of_none add_rounds

theorem value?_mul (x y : Float) :
    value? (x * y) = (value? x).bind fun p => (value? y).bind fun q => nearestValue? (p * q) :=
  value?_operation rfl ratOf?_mul_of_none mul_rounds

theorem value?_sub (x y : Float) :
    value? (x - y) = (value? x).bind fun p => (value? y).bind fun q => nearestValue? (p - q) := by
  refine value?_operation (f := UnpackedFloat.sub .binary64) rfl ?_ ?_
  · intro u v h
    rw [sub_eq_add]
    exact ratOf?_add_of_none (by rw [ratOf?_neg, Option.map_eq_none_iff]; exact h)
  · intro u v p q hu hv hp hq
    rw [sub_eq_add, sub_eq_add_neg]
    exact add_rounds hu hv.neg hp (by rw [ratOf?_neg, hq]; rfl)

theorem value?_div (hy : value? y = some q) (hne : q ≠ 0) (x : Float) :
    value? (x / y) = (value? x).bind fun p => nearestValue? (p / q) := by
  have hz : value? (x / y) = ratOf? (Float.Model.pack
      (UnpackedFloat.div .binary64 x.toModel.unpack y.toModel.unpack)).unpack := value?_eq (x / y)
  rw [value?_eq] at hy
  rw [hz, value?_eq x]
  cases hp : ratOf? x.toModel.unpack with
  | none => exact ratOf?_unpack_pack_of_none (ratOf?_div_of_none hp)
  | some p => exact div_rounds (canonical x) (canonical y) hp hy hne

theorem isNaN_iff (x : Float) : isNaN x = true ↔ x.toModel.unpack = .notANumber := by
  unfold isNaN Float.Model.unpack UnpackedFloat.unpack
  rw [exponentField_eq, fractionField_eq]
  dsimp only
  rw [Bool.and_eq_true, decide_eq_true_iff, decide_eq_true_iff]
  split_ifs with hlast hzero hfirst hzero'
  · simp [hzero]
  · simp only [hlast, iff_true]
    exact ⟨rfl, fun h => hzero (BitVec.toNat_inj.mp h)⟩
  all_goals
    refine iff_of_false (fun h => hlast (BitVec.toNat_inj.mp h.1)) nofun

/-- What is not a number stays so. -/
theorem isNaN_add {x y : Float} (h : isNaN y = true) : isNaN (x + y) = true := by
  rw [isNaN_iff] at h ⊢
  change (Float.Model.pack (UnpackedFloat.add .binary64 x.toModel.unpack y.toModel.unpack)).unpack = _
  rw [h]
  cases x.toModel.unpack <;> exact unpack_pack .notANumber

theorem isNaN_mul {x y : Float} (h : isNaN y = true) : isNaN (x * y) = true := by
  rw [isNaN_iff] at h ⊢
  change (Float.Model.pack (UnpackedFloat.mul .binary64 x.toModel.unpack y.toModel.unpack)).unpack = _
  rw [h]
  cases x.toModel.unpack <;> exact unpack_pack .notANumber

/-- A quotient of what is no rational is none by another such, and nothing by a rational one. -/
theorem div_of_value?_eq_none {x y : Float} (hy : value? y = none) :
    isNaN (x / y) = true ∨ (value? x).isSome = true ∧ value? (x / y) = some 0 := by
  rw [isNaN_iff, value?_eq x, value?_eq (x / y)]
  rw [value?_eq, ratOf?_eq_none] at hy
  change (Float.Model.pack (UnpackedFloat.div .binary64 x.toModel.unpack y.toModel.unpack)).unpack = _ ∨
    _ ∧ ratOf? (Float.Model.pack
      (UnpackedFloat.div .binary64 x.toModel.unpack y.toModel.unpack)).unpack = _
  rcases hy with h | ⟨s, h⟩
  · rw [h]
    cases x.toModel.unpack <;> exact .inl (unpack_pack .notANumber)
  · rw [h]
    cases x.toModel.unpack with
    | infinity t => exact .inl (unpack_pack .notANumber)
    | notANumber => exact .inl (unpack_pack .notANumber)
    | zero t => exact .inr ⟨rfl, congrArg ratOf? (unpack_pack (.zero _))⟩
    | finite t m e hm => exact .inr ⟨rfl, congrArg ratOf? (unpack_pack (.zero _))⟩

theorem value?_neg (x : Float) : value? (-x) = (value? x).map (- ·) := by
  rw [value?_eq (-x), value?_eq x, ← ratOf?_neg]
  exact congrArg ratOf? (unpack_pack (canonical x).neg)

/-- A number equal to zero denotes it. -/
theorem value?_ne_zero (h : (y == 0) = false) : value? y ≠ some 0 := by
  rw [value?_eq]
  intro hzero
  have : (y == 0) = (y.toModel.unpack).beq ((0 : Float).toModel.unpack) := rfl
  rw [this] at h
  have hz : (0 : Float).toModel.unpack = .zero .positive := rfl
  rw [hz] at h
  rcases (canonical y).cases_rat hzero with ⟨s, hy, -⟩ | ⟨s, m, e, hm, hy, -, -, hvalue⟩
  · rw [hy] at h
    simp [UnpackedFloat.beq, UnpackedFloat.compare] at h
  · have : (0 : Rat) < m * 2 ^ e := mul_pos (by exact_mod_cast hm) (zpow_two_pos e)
    cases s <;> simp only [signed] at hvalue <;> linarith

theorem value?_of_beq_zero (h : (y == 0) = true) : value? y = some 0 := by
  have hbeq : (y == 0) = (y.toModel.unpack).beq ((0 : Float).toModel.unpack) := rfl
  have hzero : (0 : Float).toModel.unpack = .zero .positive := rfl
  rw [hbeq, hzero] at h
  rw [value?_eq]
  cases hy : y.toModel.unpack with
  | zero s => rfl
  | notANumber => simp [hy, UnpackedFloat.beq, UnpackedFloat.compare] at h
  | infinity s => cases s <;> simp [hy, UnpackedFloat.beq, UnpackedFloat.compare] at h
  | finite s m e hm => cases s <;> simp [hy, UnpackedFloat.beq, UnpackedFloat.compare] at h

theorem value?_ofBits (bits : UInt64) : value? (Float.ofBits bits) =
    ratOfFields? (bits.toNat / 9223372036854775808) (bits.toNat / leadingBit % 2048)
      (bits.toNat % leadingBit) := by
  have hstored : (Float.ofBits bits).toModel.unpack = UnpackedFloat.unpack .binary64 bits.toBitVec :=
    unpack_pack (canonical_unpack bits.toBitVec)
  rw [value?_eq, hstored, ratOf?_unpack, toNat_unpackSign, toNat_unpackExponent,
    toNat_unpackMantissa]
  rfl

theorem ratOfFields?_subnormal {sign : Nat} (hsign : sign ≠ 1) (fraction : Nat) :
    ratOfFields? sign 0 fraction = some ((fraction : Rat) * 2 ^ (-1074 : Int)) := by
  simp [ratOfFields?, hsign]

theorem ratOfFields?_normal {sign exponent : Nat} (hsign : sign ≠ 1) (hpos : exponent ≠ 0)
    (hlast : exponent ≠ 2047) (fraction : Nat) : ratOfFields? sign exponent fraction =
      some (((leadingBit + fraction : Nat) : Rat) * 2 ^ ((exponent : Int) - 1075)) := by
  simp [ratOfFields?, hsign, hpos, hlast]

/-- The fields of a significand in its last place. -/
theorem ratOfFields?_significand {m : Nat} {e : Int} (hm : m ≤ 2 ^ 53) (he : -1074 ≤ e)
    (hlead : 2 ^ 52 ≤ m ∨ e = -1074) {bits : Nat} (hbits : bits < 0x7ff0000000000000)
    (h : bits = if m < leadingBit then m else (e + 1075).toNat * leadingBit + (m - leadingBit)) :
    ratOfFields? (bits / 9223372036854775808) (bits / leadingBit % 2048) (bits % leadingBit) =
      some ((m : Rat) * 2 ^ e) := by
  have hsign : bits / 9223372036854775808 ≠ 1 := by omega
  unfold leadingBit at h ⊢
  rcases Nat.lt_or_ge m 4503599627370496 with hsmall | hlarge
  · obtain rfl : e = -1074 := by omega
    rw [if_pos hsmall] at h
    subst h
    rw [Nat.div_eq_of_lt hsmall, Nat.mod_eq_of_lt hsmall]
    exact ratOfFields?_subnormal hsign _
  rw [if_neg (by omega)] at h
  rcases hm.lt_or_eq with hless | rfl
  · have hexponent : bits / 4503599627370496 % 2048 = (e + 1075).toNat := by omega
    have hfraction : bits % 4503599627370496 = m - 4503599627370496 := by omega
    rw [hexponent, hfraction, ratOfFields?_normal hsign (by omega) (by omega),
      Int.toNat_of_nonneg (show 0 ≤ e + 1075 by omega), leadingBit, Nat.add_sub_cancel' hlarge,
      add_sub_cancel_right]
  -- A significand that has become one bit too long counts in the exponent.
  · have hexponent : bits / 4503599627370496 % 2048 = (e + 1076).toNat := by omega
    have hfraction : bits % 4503599627370496 = 0 := by omega
    rw [hexponent, hfraction, ratOfFields?_normal hsign (by omega) (by omega),
      Int.toNat_of_nonneg (show 0 ≤ e + 1076 by omega), leadingBit,
      show e + 1076 - 1075 = e + 1 by omega, zpow_two_add]
    congr 1
    push_cast
    ring

/-- The bits of the nearest number hold a significand and its place. -/
theorem nearestBits_eq (hq : 0 < q) : ∃ m : Nat, m ≤ 2 ^ 53 ∧
    (2 ^ 52 ≤ m ∨ unitExponent q = -1074) ∧ rounded q = m * 2 ^ unitExponent q ∧
    nearestBits q = if m < leadingBit then m
      else (unitExponent q + 1075).toNat * leadingBit + (m - leadingBit) := by
  have hexponent : max (floorLog2 q - 52) (-1074) = unitExponent q := by
    rw [unitExponent, abs_of_pos hq]
  have hmost := abs_roundHalfEven_units q
  have hleast := le_roundHalfEven_units hq
  have hsmallest : -1074 ≤ unitExponent q := le_max_right _ _
  have hnonneg : 0 ≤ roundHalfEven (q / unit q) := by
    have hhalf := (abs_le.mp (abs_sub_roundHalfEven (q / unit q))).2
    have hunits := div_pos hq (unit_pos q)
    have : (-1 : Rat) < roundHalfEven (q / unit q) := by linarith
    have : -1 < roundHalfEven (q / unit q) := by exact_mod_cast this
    omega
  rw [abs_of_nonneg hnonneg] at hmost
  refine ⟨(roundHalfEven (q / unit q)).toNat, by omega, by omega, ?_, ?_⟩
  · rw [← Int.cast_natCast, Int.toNat_of_nonneg hnonneg]
    rfl
  · unfold nearestBits
    rw [if_neg hq.ne', hexponent]
    rfl

theorem ratOfFields?_nearestBits (hq : 0 ≤ q) (h : nearestBits q < 0x7ff0000000000000) :
    ratOfFields? (nearestBits q / 9223372036854775808) (nearestBits q / leadingBit % 2048)
      (nearestBits q % leadingBit) = some (rounded q) := by
  rcases hq.eq_or_lt with rfl | hpos
  · rw [rounded_zero]
    simp [nearestBits, ratOfFields?]
  obtain ⟨m, hm, hlead, hvalue, hbits⟩ := nearestBits_eq hpos
  rw [hvalue]
  exact ratOfFields?_significand hm (le_max_right _ _) hlead h hbits

/-- What stays in range has bits of a finite number. -/
theorem nearestBits_lt (hq : 0 ≤ q) (h : rounded q < 2 ^ (1024 : Int)) :
    nearestBits q < 0x7ff0000000000000 := by
  rcases hq.eq_or_lt with rfl | hpos
  · simp [nearestBits]
  obtain ⟨m, hm, hlead, hvalue, hbits⟩ := nearestBits_eq hpos
  have hplace : -1074 ≤ unitExponent q := le_max_right _ _
  rw [hvalue] at h
  unfold leadingBit at hbits
  split at hbits
  · omega
  next hlarge =>
  have hlarge : 2 ^ 52 ≤ m := by omega
  -- A power of two below the number is in range as well.
  have hbelow {k : Nat} (hk : 2 ^ k ≤ m) : (k : Int) + unitExponent q < 1024 := by
    rw [← zpow_two_lt_iff, zpow_two_add, zpow_natCast]
    have : ((2 : Rat) ^ k) ≤ m := by exact_mod_cast hk
    exact (mul_le_mul_of_nonneg_right this (zpow_two_pos _).le).trans_lt h
  have hexponent := hbelow hlarge
  rcases hm.lt_or_eq with hless | rfl
  · omega
  · have := hbelow le_rfl
    omega

theorem abs_eq (q : Rat) : q.abs = |q| := by
  rcases le_total 0 q with hq | hq
  · rw [Rat.abs_of_nonneg hq, abs_of_nonneg hq]
  · rw [Rat.abs_of_nonpos hq, abs_of_nonpos hq]

theorem value?_nearest {x : Float} (h : nearest? q = some x) : value? x = some (rounded q) := by
  unfold nearest? at h
  dsimp only at h
  split at h
  · next hbits =>
    have hsize : (nearestBits q.abs).toUInt64.toNat = nearestBits q.abs := by
      rw [Nat.toUInt64_eq, UInt64.toNat_ofNat']
      omega
    have hstored := value?_ofBits (nearestBits q.abs).toUInt64
    rw [hsize, ratOfFields?_nearestBits (by rw [abs_eq]; exact abs_nonneg q) hbits, abs_eq] at hstored
    split at h <;> rw [← Option.some.inj h, abs_eq]
    · next hneg =>
      rw [value?_neg, hstored, abs_of_neg hneg, rounded_neg]
      simp
    · next hpos =>
      rw [hstored, abs_of_nonneg (not_lt.mp hpos)]
  · simp at h

theorem value?_half : value? 0.5 = some (1 / 2) := by
  have h : (0.5 : Float).toModel.unpack = .finite .positive (2 ^ 52) (-53) (by decide) := rfl
  rw [value?_eq, h, ratOf?, cast_apply, signed]
  norm_num

theorem representable_natCast {n : Nat} (hn : n ≤ 2 ^ 53) : Representable n :=
  ⟨n, 0, by rw [Nat.abs_cast]; omega, by decide, by simp⟩

theorem nearestValue?_natCast {n : Nat} (hn : n ≤ 2 ^ 53) : nearestValue? n = some (n : Rat) := by
  have hsize : |(n : Rat)| < 2 ^ (1024 : Int) := by
    rw [Nat.abs_cast]
    calc (n : Rat) ≤ 2 ^ (53 : Int) := by exact_mod_cast hn
      _ < 2 ^ (1024 : Int) := zpow_two_lt_iff.mpr (by decide)
  rw [nearestValue?, rounded_eq_self (representable_natCast hn), if_pos hsize]

theorem value?_toFloat (n : UInt64) : value? n.toFloat = nearestValue? n.toNat := by
  have h := normalize_rounds n.toNat 0 .positive
  rw [zpow_zero, mul_one, Int.cast_natCast] at h
  rw [value?_eq, ← h]
  rfl

theorem value?_one : value? Float.exactlyRepresentablePowersOfTen[0] = some 1 := by
  have h : Float.exactlyRepresentablePowersOfTen[0].toModel.unpack =
      .finite .positive (2 ^ 52) (-52) (by decide) := rfl
  rw [value?_eq, h, ratOf?, cast_apply, signed]
  norm_num

theorem ofScientific_rounds {n : Nat} (hn : 2 ^ 53 ≤ n) :
    Rounds (UnpackedFloat.ofScientific .binary64 n 0) n := by
  have hvalue : (n : Rat) = (n <<< 53 * 1 : Nat) * 2 ^ (-53 + 0 : Int) := by
    rw [Nat.shiftLeft_eq]
    push_cast
    ring
  have hcore : UnpackedFloat.ofScientific .binary64 n 0 =
      roundWithAccuracy .binary64 .positive (n <<< 53 * 1) (-53 + 0) .exact := by
    unfold UnpackedFloat.ofScientific
    have hbits : (2 : Int) ^ Format.binary64.exponentBits = 2048 := rfl
    rw [dif_neg (by omega), hbits, if_neg (by decide), if_neg (by omega), if_pos (by decide)]
    rfl
  rw [hcore, hvalue]
  refine roundWithAccuracy_rounds (s := .positive) ?_ (standsFor_exact _) (.inl ?_)
  · rw [Nat.shiftLeft_eq]
    push_cast
    have : (0 : Rat) < n := by exact_mod_cast (show 0 < n by omega)
    positivity
  · rw [mul_one, log2_shiftLeft (by omega)]
    omega

/-- A natural number is rounded once. -/
theorem value?_ofNat (n : Nat) : value? (Float.ofNat n) = nearestValue? n := by
  unfold Float.ofNat OfScientific.ofScientific instOfScientificFloat Float.ofScientific
  dsimp only
  split
  · next h =>
    have hn : n.toUInt64.toNat = n := by
      rw [Nat.toUInt64_eq, UInt64.toNat_ofNat']
      omega
    have hstored := nearestValue?_natCast h.1.le
    rw [if_neg (by decide), value?_mul, value?_toFloat, hn, value?_one, hstored]
    change nearestValue? ((n : Rat) * 1) = _
    rw [mul_one, hstored]
  · rw [value?_eq]
    exact ofScientific_rounds (by omega)

/-- A number of the format is representable and below the bound of its exponents. -/
theorem of_value?_eq_some (h : value? x = some q) : Representable q ∧ |q| < 2 ^ (1024 : Int) := by
  rw [value?_eq] at h
  rcases (canonical x).cases_rat h with ⟨s, -, rfl⟩ | ⟨s, m, e, -, -, hplace, hhigh, rfl⟩
  · exact ⟨⟨0, 0, by decide, by decide, by simp⟩, by rw [abs_zero]; exact zpow_two_pos _⟩
  · constructor
    · obtain ⟨n, f, hn, hf, hvalue⟩ := representable_of_inPlace hplace
      cases s
      · exact ⟨-n, f, by rwa [abs_neg], hf, by rw [signed, hvalue]; push_cast; ring⟩
      · exact ⟨n, f, hn, hf, hvalue⟩
    · rw [abs_signed, abs_of_nonneg (mul_nonneg (Nat.cast_nonneg m) (zpow_two_pos e).le)]
      exact hplace.lt_iff.mpr hhigh

theorem eq_of_nearestValue? (h : nearestValue? p = some q) : q = rounded p := by
  unfold nearestValue? at h
  split at h
  · exact (Option.some.inj h).symm
  · simp at h

/-- There is a nearest number as far as the rounded one is in range. -/
theorem nearest?_bind_value? (q : Rat) : (nearest? q).bind value? = nearestValue? q := by
  cases h : nearest? q with
  | some x =>
    have hvalue := value?_nearest h
    rw [Option.bind_some, hvalue, nearestValue?, if_pos (of_value?_eq_some hvalue).2]
  | none =>
    rw [Option.bind_none, nearestValue?, if_neg]
    intro hrange
    have habs : rounded |q| < 2 ^ (1024 : Int) := by
      rcases le_total 0 q with hq | hq
      · rw [abs_of_nonneg hq]
        exact (le_abs_self _).trans_lt hrange
      · rw [abs_of_nonpos hq, rounded_neg]
        exact (neg_le_abs _).trans_lt hrange
    have hbits := nearestBits_lt (abs_nonneg q) habs
    rw [← abs_eq] at hbits
    simp [nearest?, hbits] at h

theorem value?_of_isNaN (h : isNaN x = true) : value? x = none := by
  rw [value?_eq, (isNaN_iff x).mp h]
  rfl

/-- A result that is not negative stays in range below a number in range. -/
theorem nearestValue?_of_le (hlow : 0 ≤ rounded q) (hhigh : rounded q ≤ p)
    (hp : p < 2 ^ (1024 : Int)) : nearestValue? q = some (rounded q) :=
  if_pos (by rw [abs_of_nonneg hlow]; exact hhigh.trans_lt hp)

theorem lt_of_value?_eq_some (h : value? x = some q) : q < 2 ^ (1024 : Int) :=
  (le_abs_self q).trans_lt (of_value?_eq_some h).2

end MapLayers.Binary64

namespace MapLayers.Number

open Binary64

variable {a b c : Number} {q : Rat} {x : Float}

theorem position?_float : (float x).position? = some (.finite q) ↔ value? x = some q := by
  simp only [position?]
  cases value? x with
  | some p => simp
  | none =>
    dsimp only
    split_ifs <;> simp

theorem toFloat_value (hx : a.toFloat = .ok x) (hq : a.position? = some (.finite q)) :
    value? x = some (rounded q) := by
  cases a with
  | int n =>
    obtain rfl : (n : Rat) = q := by simpa [position?] using hq
    unfold toFloat ofInt? at hx
    dsimp only at hx
    split at hx
    · next y hy => rw [← Except.ok.inj hx, value?_nearest hy]
    · simp at hx
  | float y =>
    obtain rfl : y = x := by simpa [toFloat] using hx
    have hvalue := position?_float.mp hq
    rw [hvalue, rounded_eq_self (of_value?_eq_some hvalue).1]

/-- Numbers that are not large are floating-point numbers as they are. -/
theorem rounded_eq (hq : a.position? = some (.finite q)) (hsize : |q| ≤ 2 ^ 53) :
    rounded q = q := by
  cases a with
  | int n =>
    obtain rfl : (n : Rat) = q := by simpa [position?] using hq
    exact rounded_eq_self (representable_intCast (by exact_mod_cast hsize))
  | float y => exact rounded_eq_self (of_value?_eq_some (position?_float.mp hq)).1

theorem less_of_isNaN (h : Binary64.isNaN x = true) : a.less (.float x) = false := by
  have : (float x).position? = none := by
    simp only [position?, value?_of_isNaN h, h, if_true]
  unfold less
  rw [this]
  split <;> simp_all

theorem less_int {n : Int} (h : a.position? = some (.finite q)) :
    (int n).less a = decide ((n : Rat) < q) := by
  unfold less
  rw [h]
  rfl

/-- An operation on whole numbers is exact, any other one is done on floating-point numbers. -/
theorem combine_inv {onInt : Int → Int → Int} {onFloat : Float → Float → Float}
    (h : combine onInt onFloat a b = .ok c) :
    (∃ m n, a = .int m ∧ b = .int n ∧ c = .int (onInt m n)) ∨
    ∃ x y, a.toFloat = .ok x ∧ b.toFloat = .ok y ∧ c = .float (onFloat x y) := by
  cases a <;> cases b <;>
    simp only [combine, Result.bind_eq_ok_iff, Result.pure_eq_ok_iff, Except.ok.injEq] at h
  · exact .inl ⟨_, _, rfl, rfl, h.symm⟩
  all_goals
    obtain ⟨x, hx, y, hy, rfl⟩ := h
    exact .inr ⟨x, y, hx, hy, rfl⟩

/-- Above a finite number there are finite ones and the infinite one. -/
theorem atMost_of_value?_eq_none (h : (float x).atMost (float y) = true) (hx : value? x = some p)
    (hy : value? y = none) : (float y).position? = some .posInf := by
  have hxp := position?_float.mpr hx
  cases hpos : (float y).position? with
  | none => simp [atMost, hpos, hxp] at h
  | some e =>
    cases e with
    | posInf => rfl
    | finite q => rw [position?_float.mp hpos] at hy; simp at hy
    | negInf => simp [atMost, hpos, hxp, Extended.less] at h

theorem posInf_atMost (h : (float x).atMost (float y) = true)
    (hx : (float x).position? = some .posInf) : value? y = none := by
  cases hvalue : value? y with
  | none => rfl
  | some q => simp [atMost, hx, position?_float.mpr hvalue, Extended.less] at h

theorem atMost_float {q : Rat} (hx : value? x = some p) (hy : value? y = some q) :
    (float x).atMost (float y) = true ↔ p ≤ q := by
  simp [atMost, position?_float.mpr hx, position?_float.mpr hy, Extended.less]

end MapLayers.Number
