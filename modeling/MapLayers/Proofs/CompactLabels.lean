import MapLayers.Proofs.LabelTexts
import MapLayers.Proofs.Results
import MapLayers.Proofs.SquareRoots
import MapLayers.Proofs.StoredFloats

/-!
# What compact labels denote

Without rounding of the quotients, a compact label denotes the number nearest to its own among the
hundredths of a unit. It is the label of a floating-point number whose quotients keep their hundredths when
they are rounded. Where a number rounds to a thousand of one unit, the label shows one of the next, so
labels keep the order of the numbers across the units, and no mantissa reaches a thousand but those of the
largest unit.
-/

namespace MapLayers.Label

section InUnits

variable {size : Nat} {m p q : Rat}

/-- The number nearest to `m` in hundredths of a unit. -/
def inUnits (size : Nat) (m : Rat) : Rat := roundHalfEven (m / size * 100) / 100 * size

theorem inUnits_mono (size : Nat) (h : p ≤ q) : inUnits size p ≤ inUnits size q := by
  have hsize : (0 : Rat) ≤ size := Nat.cast_nonneg size
  have hscaled : p / size * 100 ≤ q / size * 100 :=
    mul_le_mul_of_nonneg_right (div_le_div_of_nonneg_right h hsize) (by norm_num)
  have hrounded : (roundHalfEven (p / size * 100) : Rat) ≤ roundHalfEven (q / size * 100) := by
    exact_mod_cast roundHalfEven_mono hscaled
  exact mul_le_mul_of_nonneg_right (div_le_div_of_nonneg_right hrounded (by norm_num)) hsize

theorem inUnits_multiple (hsize : 0 < size) (n : Nat) : inUnits size (n * size) = n * size := by
  have hpos : (0 : Rat) < size := by exact_mod_cast hsize
  have hscaled : (n * size : Rat) / size * 100 = ((n * 100 : Int) : Rat) := by
    push_cast
    field_simp
  rw [inUnits, hscaled, roundHalfEven_intCast]
  push_cast
  field_simp

theorem abs_inUnits_sub (hsize : 0 < size) (m : Rat) : |inUnits size m - m| ≤ 5 / 1000 * size := by
  have hpos : (0 : Rat) < size := by exact_mod_cast hsize
  have hscaled : inUnits size m - m =
      -(m / size * 100 - roundHalfEven (m / size * 100)) * (size / 100) := by
    unfold inUnits
    field_simp
    ring
  rw [hscaled, abs_mul, abs_neg, abs_of_pos (by positivity : (0 : Rat) < size / 100)]
  have hhalf := mul_le_mul_of_nonneg_right (abs_sub_roundHalfEven (m / size * 100))
    (by positivity : (0 : Rat) ≤ size / 100)
  linarith

end InUnits

/-- Hundredths of an exact number that is not negative. -/
def exactHundredths (q : Rat) : Nat := (roundHalfEven (q * 100)).toNat

/-- The compact label of a number whose quotients are not rounded. -/
def exactLabel (q : Rat) : Result Compact := compact exactHundredths (q < 0) |q|

theorem exactHundredths_cast {q : Rat} (h : 0 ≤ q) :
    (exactHundredths q : Rat) = roundHalfEven (q * 100) := by
  have hzero : roundHalfEven 0 ≤ roundHalfEven (q * 100) := roundHalfEven_mono (by positivity)
  have hnonneg : 0 ≤ roundHalfEven (q * 100) := by
    rwa [← Int.cast_zero, roundHalfEven_intCast] at hzero
  rw [exactHundredths, ← Int.cast_natCast, Int.toNat_of_nonneg hnonneg]

theorem hundredths_units {m : Rat} (hm : 0 ≤ m) (size : Nat) :
    (exactHundredths (m / size) : Rat) / 100 * size = inUnits size m := by
  rw [exactHundredths_cast (div_nonneg hm (Nat.cast_nonneg size)), inUnits]

def trillion : LabelUnit := ⟨1000000000000, "T"⟩

/-- A label with some hundredths of `shown` for a number whose size is that of `unit`. -/
structure Shows (m : Rat) (unit shown : LabelUnit) (hundredths : Nat) : Prop where
  unit_mem : unit ∈ plain :: units
  shown_mem : shown ∈ plain :: units
  reached : unit = plain ∨ unit.size ≤ m
  below : unit = trillion ∨ m < (1000 * unit.size : Nat)
  size_le : unit.size ≤ shown.size
  value : (hundredths : Rat) / 100 * shown.size = inUnits unit.size m
  short : shown = trillion ∨ hundredths < 100000

section Cases

variable {m : Rat} {u b : LabelUnit}

theorem size_pos (h : u ∈ plain :: units) : 0 < u.size := by
  simp only [plain, units, List.mem_cons, List.not_mem_nil, or_false] at h
  rcases h with rfl | rfl | rfl | rfl | rfl <;> decide

theorem Shows.kept (hu : u ∈ plain :: units) (hm : 0 ≤ m) (hreached : u = plain ∨ u.size ≤ m)
    (hbelow : u = trillion ∨ m < (1000 * u.size : Nat))
    (hshort : u = trillion ∨ exactHundredths (m / u.size) < 100000) :
    Shows m u u (exactHundredths (m / u.size)) :=
  ⟨hu, hu, hreached, hbelow, le_rfl, hundredths_units hm u.size, hshort⟩

/-- What rounds to a thousand of a unit rounds to one of the next. -/
theorem inUnits_carry (hsize : 0 < u.size) (hm : 0 ≤ m) (hbelow : m < (1000 * u.size : Nat))
    (hcarry : 100000 ≤ exactHundredths (m / u.size)) :
    inUnits u.size m = (1000 * u.size : Nat) := by
  refine le_antisymm ?_ ?_
  · have hmost := inUnits_mono u.size (show m ≤ (1000 : Nat) * u.size by exact_mod_cast hbelow.le)
    rw [inUnits_multiple hsize] at hmost
    exact_mod_cast hmost
  · have hcarry' : (100000 : Rat) ≤ exactHundredths (m / u.size) := by exact_mod_cast hcarry
    have hpos : (0 : Rat) ≤ u.size := Nat.cast_nonneg u.size
    have hleast := mul_le_mul_of_nonneg_right hcarry' hpos
    rw [← hundredths_units hm]
    push_cast
    linarith

/-- It has a hundred hundredths there. -/
theorem hundredths_carry (hsize : 0 < u.size) (hm : 0 ≤ m) (hbelow : m < (1000 * u.size : Nat))
    (hcarry : 100000 ≤ exactHundredths (m / u.size)) (hb : b.size = 1000 * u.size) :
    exactHundredths (m / b.size) = 100 := by
  have hpos : (0 : Rat) < u.size := by exact_mod_cast hsize
  have hscaled : m / b.size * 100 = m / u.size * 100 / 1000 := by
    rw [hb]
    push_cast
    field_simp
  -- The thousand is met up to half a hundredth of the smaller unit.
  have hmost : m / u.size * 100 < 100000 := by
    rw [div_mul_eq_mul_div, div_lt_iff₀ hpos]
    push_cast at hbelow
    linarith
  have hleast : 99999 ≤ m / u.size * 100 := by
    have hcarry' : (100000 : Rat) ≤ exactHundredths (m / u.size) := by exact_mod_cast hcarry
    rw [exactHundredths_cast (div_nonneg hm hpos.le)] at hcarry'
    have hhalf := (abs_le.mp (abs_sub_roundHalfEven (m / u.size * 100))).1
    linarith
  have hrounded : roundHalfEven (m / b.size * 100) = 100 := by
    refine roundHalfEven_eq_of_lt ?_
    rw [hscaled, abs_lt]
    constructor <;> push_cast <;> linarith
  rw [exactHundredths, hrounded]
  rfl

theorem Shows.carried (hu : u ∈ plain :: units) (hb : b ∈ plain :: units) (hm : 0 ≤ m)
    (hreached : u = plain ∨ u.size ≤ m) (hbelow : m < (1000 * u.size : Nat))
    (hnext : b.size = 1000 * u.size) (hcarry : 100000 ≤ exactHundredths (m / u.size)) :
    Shows m u b 100 := by
  refine ⟨hu, hb, hreached, .inr hbelow, by omega, ?_, .inr (by decide)⟩
  rw [inUnits_carry (size_pos hu) hm hbelow hcarry, hnext]
  norm_num

end Cases

theorem unitFor_units (m : Rat) : unitFor m none units =
    if m < 1000000000000 then
      if m < 1000000000 then
        if m < 1000000 then
          if m < 1000 then none
          else some (⟨1000, "K"⟩, some ⟨1000000, "M"⟩)
        else some (⟨1000000, "M"⟩, some ⟨1000000000, "B"⟩)
      else some (⟨1000000000, "B"⟩, some trillion)
    else some (trillion, none) := by
  simp [unitFor, units, Arithmetic.less, Arithmetic.ofInt, trillion]

theorem div_size {u : LabelUnit} (hu : u ∈ plain :: units) (m : Rat) :
    Arithmetic.div m (Arithmetic.ofInt u.size) = .ok (m / u.size) := by
  have hsize : ¬(u.size : Rat) = 0 := by exact_mod_cast (size_pos hu).ne'
  simp only [Arithmetic.div, Arithmetic.ofInt, Int.cast_natCast, if_neg hsize]

theorem shows_between {m : Rat} {u b : LabelUnit} (hfor : unitFor m none units = some (u, some b))
    (hu : u ∈ plain :: units) (hb : b ∈ plain :: units) (hnext : b.size = 1000 * u.size) (hm : 0 ≤ m)
    (hreached : u.size ≤ m) (hbelow : m < (1000 * u.size : Nat)) (negative : Bool) :
    ∃ shown hundredths, compact exactHundredths negative m = .ok ⟨negative, hundredths, shown.suffix⟩ ∧
      Shows m u shown hundredths := by
  simp only [compact, hfor, div_size hu, div_size hb, Result.ok_bind]
  split_ifs with hcarry
  · refine ⟨b, 100, ?_, .carried hu hb hm (.inr hreached) hbelow hnext hcarry⟩
    rw [hundredths_carry (size_pos hu) hm hbelow hcarry hnext]
    rfl
  · exact ⟨u, _, rfl, .kept hu hm (.inr hreached) (.inr hbelow) (.inr (not_le.mp hcarry))⟩

theorem shows_plain {m : Rat} (hm : 0 ≤ m) (hbelow : m < 1000)
    (hfor : unitFor m none units = none) (negative : Bool) :
    ∃ shown hundredths, compact exactHundredths negative m = .ok ⟨negative, hundredths, shown.suffix⟩ ∧
      Shows m plain shown hundredths := by
  have hplain : plain ∈ plain :: units := List.mem_cons_self
  have hone : m / plain.size = m := by simp [plain]
  have hless : m < (1000 * plain.size : Nat) := by simpa [plain] using hbelow
  simp only [compact, hfor]
  split_ifs with hcarry
  · rw [← hone] at hcarry
    exact ⟨⟨1000, "K"⟩, 100, rfl, .carried hplain (by simp [units]) hm (.inl rfl) hless rfl hcarry⟩
  · have hkept := Shows.kept hplain hm (.inl rfl) (.inr hless) (.inr (by rwa [hone, ← not_le]))
    rw [hone] at hkept
    exact ⟨plain, _, rfl, hkept⟩

theorem shows_trillion {m : Rat} (hreached : trillion.size ≤ m)
    (hfor : unitFor m none units = some (trillion, none)) (negative : Bool) :
    ∃ shown hundredths, compact exactHundredths negative m = .ok ⟨negative, hundredths, shown.suffix⟩ ∧
      Shows m trillion shown hundredths := by
  have htrillion : trillion ∈ plain :: units := by simp [units, trillion]
  have hm : 0 ≤ m := le_trans (Nat.cast_nonneg trillion.size) hreached
  refine ⟨trillion, exactHundredths (m / trillion.size), ?_,
    .kept htrillion hm (.inr hreached) (.inl rfl) (.inl rfl)⟩
  simp only [compact, hfor, div_size htrillion, Result.ok_bind]
  rfl

theorem exists_shows (negative : Bool) {m : Rat} (hm : 0 ≤ m) : ∃ unit shown hundredths,
    compact exactHundredths negative m = .ok ⟨negative, hundredths, shown.suffix⟩ ∧
      Shows m unit shown hundredths := by
  have hfor := unitFor_units m
  split_ifs at hfor with hT hB hM hK
  · exact ⟨plain, shows_plain hm hK hfor negative⟩
  · exact ⟨_, shows_between hfor (by simp [units]) (by simp [units]) rfl hm
      (by exact_mod_cast not_lt.mp hK) (by exact_mod_cast hM) negative⟩
  · exact ⟨_, shows_between hfor (by simp [units]) (by simp [units]) rfl hm
      (by exact_mod_cast not_lt.mp hM) (by exact_mod_cast hB) negative⟩
  · exact ⟨_, shows_between hfor (by simp [units]) (by simp [units, trillion]) rfl hm
      (by exact_mod_cast not_lt.mp hB) (by exact_mod_cast hT) negative⟩
  · exact ⟨trillion, shows_trillion (by exact_mod_cast not_lt.mp hT) hfor negative⟩

section Floats

open Binary64 (value? rounded)

variable {x : Float} {m q : Rat} {u : LabelUnit}

/-- The quotients that are taken for a label. -/
def quotients (m : Rat) : List Rat :=
  match unitFor m none units with
  | none => []
  | some (u, bigger) =>
    m / u.size :: if 100000 ≤ exactHundredths (m / u.size) then bigger.toList.map (m / ·.size) else []

/-- No quotient has other hundredths as a floating-point number; none has if all of them are such numbers. -/
def KeepsHundredths (m : Rat) : Prop :=
  ∀ p ∈ quotients m, exactHundredths (rounded p) = exactHundredths p

theorem keepsHundredths_of_representable (h : ∀ p ∈ quotients m, Binary64.Representable p) :
    KeepsHundredths m := by
  intro p hp
  rw [Binary64.rounded_eq_self (h p hp)]

theorem magnitude_of_value? (hx : value? x = some q) : Binary64.magnitude x = |q| := by
  have hnonneg := Binary64.magnitude_nonneg x
  unfold value? at hx
  split at hx
  · rw [← Option.some.inj hx]
    split <;> simp [abs_of_nonneg hnonneg]
  · simp at hx

theorem roundedHundredths_float (hx : value? x = some q) (hq : 0 ≤ q) :
    roundedHundredths (.float x) = exactHundredths q := by
  rw [roundedHundredths, magnitude_of_value? hx, abs_of_nonneg hq, exactHundredths]

theorem size_le (hu : u ∈ units) : 1 ≤ u.size ∧ u.size ≤ 2 ^ 53 := by
  simp only [units, List.mem_cons, List.not_mem_nil, or_false] at hu
  rcases hu with rfl | rfl | rfl | rfl <;> decide

theorem value?_size (hu : u ∈ units) : value? (Float.ofInt u.size) = some (u.size : Rat) :=
  (Binary64.value?_ofNat u.size).trans (Binary64.nearestValue?_natCast (size_le hu).2)

theorem unitFor_float (hx : value? x = some m) {candidates : List LabelUnit}
    (hunits : ∀ u ∈ candidates, u ∈ units) (bigger : Option LabelUnit) :
    unitFor (Number.float x) bigger candidates = unitFor m bigger candidates := by
  induction candidates generalizing bigger with
  | nil => rfl
  | cons u rest ih =>
    obtain ⟨hu, hrest⟩ := List.forall_mem_cons.mp hunits
    have hless : Arithmetic.less (Number.float x) (Arithmetic.ofInt u.size) =
        Arithmetic.less m (Arithmetic.ofInt u.size) := by
      change (Number.float x).less (.float (Float.ofInt u.size)) = decide (m < ((u.size : Int) : Rat))
      unfold Number.less
      rw [Number.position?_float.mpr hx, Number.position?_float.mpr (value?_size hu)]
      rfl
    simp only [unitFor, hless, ih hrest]

theorem mem_of_unitFor {m : Rat} {candidates : List LabelUnit} {bigger next : Option LabelUnit}
    (h : unitFor m bigger candidates = some (u, next)) :
    u ∈ candidates ∧ ∀ b ∈ next, b ∈ candidates ∨ b ∈ bigger := by
  induction candidates generalizing bigger with
  | nil => simp [unitFor] at h
  | cons first rest ih =>
    unfold unitFor at h
    split at h
    · obtain ⟨hu, hnext⟩ := ih h
      refine ⟨List.mem_cons_of_mem _ hu, fun b hb => ?_⟩
      rcases hnext b hb with hrest | hfirst
      · exact .inl (List.mem_cons_of_mem _ hrest)
      · rw [Option.mem_some_iff.mp hfirst]
        exact .inl List.mem_cons_self
    · obtain ⟨rfl, rfl⟩ := Prod.mk.inj (Option.some.inj h)
      exact ⟨List.mem_cons_self, fun b hb => .inr hb⟩

/-- The hundredths of a floating-point quotient are those of the exact one. -/
theorem hundredths_div_float (hx : value? x = some m) (hm : 0 ≤ m) (hu : u ∈ units)
    (hkeeps : exactHundredths (rounded (m / u.size)) = exactHundredths (m / u.size)) :
    (Arithmetic.div (Number.float x) (Arithmetic.ofInt u.size)).map roundedHundredths =
      .ok (exactHundredths (m / u.size)) := by
  obtain ⟨hone, -⟩ := size_le hu
  have hsize : (1 : Rat) ≤ u.size := by exact_mod_cast hone
  have hpos : (0 : Rat) < u.size := zero_lt_one.trans_le hsize
  have hdivisor := value?_size hu
  have hnonzero : (Float.ofInt u.size == 0) = false := by
    cases hzero : Float.ofInt u.size == 0 with
    | false => rfl
    | true =>
      have hvalue := Binary64.value?_of_beq_zero hzero
      rw [hdivisor, Option.some.injEq] at hvalue
      exact absurd hvalue hpos.ne'
  -- A quotient by a whole number is no larger than what is divided.
  have hquotient : value? (x / Float.ofInt u.size) = some (rounded (m / u.size)) := by
    obtain ⟨hrepresentable, hlarge⟩ := Binary64.of_value?_eq_some hx
    rw [abs_of_nonneg hm] at hlarge
    rw [Binary64.value?_div hdivisor hpos.ne', hx, Option.bind_some]
    exact (Binary64.nearestValue?_mem Binary64.representable_zero hrepresentable le_rfl hlarge
      ⟨div_nonneg hm hpos.le, div_le_self hm hsize⟩).1
  have hnonneg : 0 ≤ rounded (m / u.size) :=
    Binary64.le_rounded Binary64.representable_zero (div_nonneg hm hpos.le)
  change ((if Float.ofInt u.size == 0 then throw .divisionByZero
    else return Number.float (x / Float.ofInt u.size) : Result Number)).map roundedHundredths = _
  rw [hnonzero, ← hkeeps, ← roundedHundredths_float hquotient hnonneg]
  rfl

/-- Labels of floating-point numbers are exact if their quotients are rounded without a loss. -/
theorem compact_float (hx : value? x = some m) (hm : 0 ≤ m) (hkeeps : KeepsHundredths m)
    (negative : Bool) :
    compact roundedHundredths negative (.float x) = compact exactHundredths negative m := by
  unfold KeepsHundredths quotients at hkeeps
  simp only [compact, unitFor_float hx (fun u hu => hu) none]
  cases hfor : unitFor m none units with
  | none => simp only [roundedHundredths_float hx hm]
  | some found =>
    obtain ⟨u, bigger⟩ := found
    obtain ⟨hu, hbigger⟩ := mem_of_unitFor hfor
    simp only [hfor, List.forall_mem_cons] at hkeeps
    obtain ⟨hkept, hothers⟩ := hkeeps
    obtain ⟨y, hy, hhundredths⟩ := Result.map_eq_ok_iff.mp (hundredths_div_float hx hm hu hkept)
    simp only [hy, div_size (List.mem_cons_of_mem _ hu), Result.ok_bind, hhundredths]
    cases bigger with
    | none => rfl
    | some b =>
      have hb : b ∈ units := (hbigger b rfl).resolve_right nofun
      split_ifs with hcarry
      · obtain ⟨z, hz, hnext⟩ := Result.map_eq_ok_iff.mp
          (hundredths_div_float hx hm hb (hothers _ (by simp [hcarry])))
        simp only [hz, div_size (List.mem_cons_of_mem _ hb), Result.ok_bind, hnext]
      · rfl

theorem ofJson_eq_exactLabel {value : Json} (hvalue : value.toFloat = .ok x) (hx : value? x = some q)
    (hkeeps : KeepsHundredths |q|) : ofJson value = (exactLabel q).map Compact.text := by
  have hnumber : Binary64.isNaN x = false := by
    by_contra hnan
    rw [Binary64.value?_of_isNaN (Bool.eq_true_of_not_eq_false hnan)] at hx
    simp at hx
  have hfinite : Binary64.isFinite x = true := by
    by_contra hinfinite
    simp [value?, hinfinite] at hx
  have hsize : value? x.abs = some |q| := by rw [Binary64.value?_abs, hx, Option.map_some]
  have hsign : decide (x < 0) = decide (q < 0) :=
    decide_eq_decide.mpr (Binary64.lt_iff hx Binary64.value?_zero_lit)
  have hnull : value ≠ .null := by
    rintro rfl
    exact nomatch hvalue
  unfold ofJson
  split
  · exact absurd rfl hnull
  · rw [hvalue, Result.ok_bind, hnumber, hfinite, hsign, compact_float hsize (abs_nonneg q) hkeeps]
    rfl

end Floats

section Order

variable {m m' : Rat} {u u' v v' : LabelUnit} {n n' : Nat}

theorem size_cases (hu : u ∈ plain :: units) (hv : v ∈ plain :: units) :
    u = v ∨ (1000 * u.size ≤ v.size ∧ u ≠ trillion ∧ v ≠ plain) ∨
      (1000 * v.size ≤ u.size ∧ v ≠ trillion ∧ u ≠ plain) := by
  simp only [plain, units, List.mem_cons, List.not_mem_nil, or_false] at hu hv
  rcases hu with rfl | rfl | rfl | rfl | rfl <;> rcases hv with rfl | rfl | rfl | rfl | rfl <;> decide

/-- The labels of two sizes are in the order of the sizes. -/
theorem Shows.mono (h : Shows m u v n) (h' : Shows m' u' v' n') (hle : m ≤ m') :
    (n : Rat) / 100 * v.size ≤ (n' : Rat) / 100 * v'.size := by
  rw [h.value, h'.value]
  rcases size_cases h.unit_mem h'.unit_mem with rfl | ⟨hsize, hu, hu'⟩ | ⟨hsize, hu', hu⟩
  · exact inUnits_mono u.size hle
  · -- A thousand of the smaller unit lies between the two.
    have hbelow := h.below.resolve_left hu
    have hreached := h'.reached.resolve_left hu'
    have hmost := inUnits_mono u.size (show m ≤ (1000 : Nat) * u.size by exact_mod_cast hbelow.le)
    have hleast := inUnits_mono u'.size (show (1 : Nat) * u'.size ≤ m' by simpa using hreached)
    rw [inUnits_multiple (size_pos h.unit_mem)] at hmost
    rw [inUnits_multiple (size_pos h'.unit_mem)] at hleast
    calc inUnits u.size m ≤ (1000 : Nat) * u.size := hmost
      _ ≤ (1 : Nat) * u'.size := by exact_mod_cast (by omega : 1000 * u.size ≤ 1 * u'.size)
      _ ≤ inUnits u'.size m' := hleast
  · have hbelow := h'.below.resolve_left hu'
    have hreached := h.reached.resolve_left hu
    have hsize' : ((1000 * u'.size : Nat) : Rat) ≤ u.size := by exact_mod_cast hsize
    linarith

end Order

/-- The label of an exact number, as it is read. -/
def Denotes (q : Rat) (r : Reading) : Prop := ∃ c, exactLabel q = .ok c ∧ read? c.text = some r

theorem exists_denotes (q : Rat) : ∃ unit shown hundredths, Shows |q| unit shown hundredths ∧
    ∀ r, Denotes q r ↔ r = ⟨q < 0, (hundredths : Rat) / 100, shown⟩ := by
  obtain ⟨unit, shown, hundredths, hlabel, hshows⟩ := exists_shows (decide (q < 0)) (abs_nonneg q)
  have hread : read? (⟨decide (q < 0), hundredths, shown.suffix⟩ : Compact).text = _ :=
    read?_text hshows.shown_mem rfl
  refine ⟨unit, shown, hundredths, hshows, fun r => ⟨?_, ?_⟩⟩
  · rintro ⟨c, hc, hr⟩
    have hsame : (⟨decide (q < 0), hundredths, shown.suffix⟩ : Compact) = c :=
      Except.ok.inj (hlabel.symm.trans hc)
    subst hsame
    exact Option.some.inj (hr.symm.trans hread)
  · rintro rfl
    exact ⟨_, hlabel, hread⟩

theorem Denotes.exists_shows {q : Rat} {r : Reading} (h : Denotes q r) :
    ∃ unit hundredths, Shows |q| unit r.unit hundredths ∧
      r.mantissa = hundredths / 100 ∧ r.negative = decide (q < 0) := by
  obtain ⟨unit, shown, hundredths, hshows, hr⟩ := exists_denotes q
  obtain rfl := (hr r).mp h
  exact ⟨unit, hundredths, hshows, rfl, rfl⟩

theorem Denotes.value {q : Rat} {r : Reading} (h : Denotes q r) :
    r.value = if q < 0 then -(r.mantissa * r.unit.size) else r.mantissa * r.unit.size := by
  obtain ⟨unit, hundredths, -, -, hnegative⟩ := h.exists_shows
  rw [Reading.value, hnegative]
  split_ifs <;> simp_all

theorem Denotes.mantissa_nonneg {q : Rat} {r : Reading} (h : Denotes q r) : 0 ≤ r.mantissa := by
  obtain ⟨unit, hundredths, -, hmantissa, -⟩ := h.exists_shows
  rw [hmantissa]
  positivity

theorem Denotes.mantissa_lt {q : Rat} {r : Reading} (h : Denotes q r) (hunit : r.unit ≠ trillion) :
    r.mantissa < 1000 := by
  obtain ⟨unit, hundredths, hshows, hmantissa, -⟩ := h.exists_shows
  have hshort : (hundredths : Rat) < 100000 := by exact_mod_cast hshows.short.resolve_left hunit
  rw [hmantissa]
  linarith

/-- Half a hundredth of the unit shown is the most that a label is off. -/
theorem Denotes.abs_sub_le {q : Rat} {r : Reading} (h : Denotes q r) :
    |r.value - q| ≤ 5 / 1000 * r.unit.size := by
  obtain ⟨unit, hundredths, hshows, hmantissa, -⟩ := h.exists_shows
  have hsize : (unit.size : Rat) ≤ r.unit.size := by exact_mod_cast hshows.size_le
  have hoff : |r.value - q| = |inUnits unit.size (|q|) - (|q|)| := by
    rw [h.value, hmantissa, hshows.value]
    split_ifs with hq
    · rw [abs_of_neg hq, ← abs_neg]
      congr 1
      ring
    · rw [abs_of_nonneg (not_lt.mp hq)]
  have hhalf := abs_inUnits_sub (size_pos hshows.unit_mem) |q|
  rw [hoff]
  linarith

theorem Denotes.magnitude_mono {a b : Rat} {r s : Reading} (hr : Denotes a r) (hs : Denotes b s)
    (hle : |a| ≤ |b|) : r.mantissa * r.unit.size ≤ s.mantissa * s.unit.size := by
  obtain ⟨_, _, hshows, hmantissa, -⟩ := hr.exists_shows
  obtain ⟨_, _, hshows', hmantissa', -⟩ := hs.exists_shows
  rw [hmantissa, hmantissa']
  exact hshows.mono hshows' hle

theorem Denotes.magnitude_nonneg {q : Rat} {r : Reading} (h : Denotes q r) :
    0 ≤ r.mantissa * r.unit.size := mul_nonneg h.mantissa_nonneg (Nat.cast_nonneg r.unit.size)

theorem Denotes.mono {a b : Rat} {r s : Reading} (hr : Denotes a r) (hs : Denotes b s) (hle : a ≤ b) :
    r.value ≤ s.value := by
  have hr₀ := hr.magnitude_nonneg
  have hs₀ := hs.magnitude_nonneg
  rw [hr.value, hs.value]
  split_ifs with ha hb hb
  · -- Below zero the larger number has the smaller size.
    have hsizes : |b| ≤ |a| := by
      rw [abs_of_neg ha, abs_of_neg hb]
      linarith
    exact neg_le_neg (hs.magnitude_mono hr hsizes)
  · linarith
  · exact absurd (hle.trans_lt hb) ha
  · have hsizes : |a| ≤ |b| := by rwa [abs_of_nonneg (not_lt.mp ha), abs_of_nonneg (not_lt.mp hb)]
    exact hr.magnitude_mono hs hsizes

/-- The label that is written for a number reads so, unless hundredths are lost in a quotient. -/
def Written (q : Rat) (r : Reading) : Prop :=
  ∀ value x, value.toFloat = .ok x → Binary64.value? x = some q → KeepsHundredths |q| →
    ∃ label, ofJson value = .ok label ∧ read? label = some r

theorem Denotes.written {q : Rat} {r : Reading} (h : Denotes q r) : Written q r := by
  intro value x hvalue hx hkeeps
  obtain ⟨c, hc, hread⟩ := h
  refine ⟨c.text, ?_, hread⟩
  rw [ofJson_eq_exactLabel hvalue hx hkeeps, hc]
  rfl

/-- What the labels of two numbers denote, where the first is not the larger. -/
structure Faithful (a b : Rat) (r s : Reading) : Prop where
  first : Denotes a r
  second : Denotes b s
  written : Written a r ∧ Written b s
  ordered : r.value ≤ s.value
  close : |r.value - a| ≤ 5 / 1000 * r.unit.size ∧ |s.value - b| ≤ 5 / 1000 * s.unit.size
  short : (r.unit.suffix = "T" ∨ |r.mantissa| < 1000) ∧ (s.unit.suffix = "T" ∨ |s.mantissa| < 1000)

theorem Denotes.short {q : Rat} {r : Reading} (h : Denotes q r) :
    r.unit.suffix = "T" ∨ |r.mantissa| < 1000 := by
  by_cases hunit : r.unit = trillion
  · exact .inl (by rw [hunit]; rfl)
  · exact .inr (by rw [abs_of_nonneg h.mantissa_nonneg]; exact h.mantissa_lt hunit)

/-- Two numbers have labels that can be read, are close to them and keep their order. -/
theorem labels_faithful (a b : Rat) (hle : a ≤ b) : ∃ r s, Faithful a b r s := by
  obtain ⟨_, _, _, _, hr⟩ := exists_denotes a
  obtain ⟨_, _, _, _, hs⟩ := exists_denotes b
  have hfirst := (hr _).mpr rfl
  have hsecond := (hs _).mpr rfl
  exact ⟨_, _,
    { first := hfirst
      second := hsecond
      written := ⟨hfirst.written, hsecond.written⟩
      ordered := hfirst.mono hsecond hle
      close := ⟨hfirst.abs_sub_le, hsecond.abs_sub_le⟩
      short := ⟨hfirst.short, hsecond.short⟩ }⟩

/-- At the seam between thousands and millions both labels say a million, and the second is written so. -/
theorem labels_faithful_seam : (999995 : Rat) ≤ 1000000 ∧ ∃ r s, Faithful 999995 1000000 r s ∧
    ∃ label, ofJson (.float 1000000) = .ok label ∧ read? label = some s := by
  have hle : (999995 : Rat) ≤ 1000000 := by norm_num
  obtain ⟨r, s, hfaithful⟩ := labels_faithful 999995 1000000 hle
  have hquotients : quotients |1000000| = [1] := by decide +kernel
  have hkeeps : KeepsHundredths |1000000| := by
    apply keepsHundredths_of_representable
    rw [hquotients]
    intro p hp
    rw [List.mem_singleton.mp hp]
    exact Binary64.representable_one
  exact ⟨hle, r, s, hfaithful, hfaithful.written.2 (.float 1000000) 1000000 rfl
    (Binary64.value?_ofNat_lit 1000000 (by decide)) hkeeps⟩

end MapLayers.Label
