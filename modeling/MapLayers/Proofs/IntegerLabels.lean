import MapLayers.Accessor.Basic
import MapLayers.Proofs.FloatArithmetic

/-!
# Labels of whole numbers

A label of type `integer` reads its value as a floating-point number first. A whole number is therefore
shown as the nearest number with a significand of 53 bits: small ones as they are, identifiers and cell
indices of 64 bits with other last digits in general, and none beyond the largest floating-point number.
-/

namespace MapLayers

/-- Whole numbers with a significand of 53 bits, followed by zeros. -/
def FitsSignificand (n : Int) : Prop := ∃ (m : Int) (k : Nat), |m| ≤ 2 ^ 53 ∧ n = m * 2 ^ k

theorem fitsSignificand_of_le {n : Int} (h : |n| ≤ 2 ^ 53) : FitsSignificand n :=
  ⟨n, 0, h, by simp⟩

namespace Binary64

theorem representable_intCast_iff {n : Int} : Representable n ↔ FitsSignificand n := by
  constructor
  · rintro ⟨m, e, hm, -, hvalue⟩
    rcases le_or_gt 0 e with he | he
    · refine ⟨m, e.toNat, hm, ?_⟩
      rw [← Int.toNat_of_nonneg he, zpow_natCast] at hvalue
      exact_mod_cast hvalue
    · have hpow : (2 : Rat) ^ e ≤ 1 := zpow_zero (2 : Rat) ▸ zpow_two_le he.le
      have hsize : |(n : Rat)| ≤ |(m : Rat)| := by
        rw [hvalue, abs_mul, abs_of_pos (zpow_two_pos e)]
        exact mul_le_of_le_one_right (abs_nonneg _) hpow
      have hsize' : |n| ≤ |m| := by exact_mod_cast hsize
      exact fitsSignificand_of_le (hsize'.trans hm)
  · rintro ⟨m, k, hm, rfl⟩
    refine ⟨m, k, hm, by omega, ?_⟩
    rw [zpow_natCast]
    push_cast
    rfl

theorem rounded_intCast (n : Int) : ∃ m : Int, rounded n = m := by
  rcases le_or_gt |n| (2 ^ 53) with hsmall | hlarge
  · exact ⟨n, rounded_eq_self (representable_intCast hsmall)⟩
  · have hbig : (2 : Rat) ^ (53 : Int) < |(n : Rat)| := by exact_mod_cast hlarge
    have hexponent : 0 ≤ unitExponent (n : Rat) := by
      have hlead := (floorLog2_spec ((zpow_two_pos 53).trans hbig)).2
      have := zpow_two_lt_iff.mp (hbig.trans hlead)
      unfold unitExponent
      omega
    refine ⟨roundHalfEven (n / unit n) * 2 ^ (unitExponent (n : Rat)).toNat, ?_⟩
    push_cast
    rw [← zpow_natCast, Int.toNat_of_nonneg hexponent]
    rfl

end Binary64

open Binary64

namespace Decimal

theorem integerText_eq (n : Int) : integerText n = n.repr := by
  cases n with
  | ofNat m => rfl
  | negSucc m =>
    rw [integerText, if_pos (Int.negSucc_lt_zero m)]
    rfl

end Decimal

namespace TextFormat

theorem nearestWhole_int (n : Int) : (nearestWhole (.int n)).toOption =
    (nearestValue? n).map roundHalfEven := by
  have hread : (Json.int n).toFloat = Number.ofInt? n := rfl
  rw [← nearest?_bind_value?, nearestWhole, hread, Number.ofInt?]
  cases nearest? (n : Rat) with
  | none => rfl
  | some x =>
    simp only [Result.ok_bind, Number.toInt, Option.bind_some]
    cases value? x <;> rfl

end TextFormat

/-- A label shows the number nearest to a whole number: exactly those with few enough bits as they are. -/
structure ShowsNearest (n : Int) (outcome : Result Json) : Prop where
  succeeds_iff : Result.Succeeds outcome ↔ |rounded n| < 2 ^ (1024 : Int)
  nearest : ∀ label, outcome = .ok label → ∃ m : Int, rounded n = m ∧ label = .text m.repr
  exact_iff : ∀ label, outcome = .ok label → (label = .text n.repr ↔ FitsSignificand n)

theorem showsNearest_of_eq {n m : Int} {outcome : Result Json} (hm : rounded n = m)
    (h : outcome.toOption = if |rounded n| < 2 ^ (1024 : Int) then some (.text m.repr) else none) :
    ShowsNearest n outcome := by
  have hlabel (label : Json) (hok : outcome = .ok label) : label = .text m.repr := by
    rw [hok] at h
    split at h
    · exact Option.some.inj h
    · exact nomatch h
  refine ⟨?_, fun label hok => ⟨m, hm, hlabel label hok⟩, fun label hok => ?_⟩
  · constructor
    · rintro ⟨label, hok⟩
      by_contra hlarge
      rw [hok, if_neg hlarge] at h
      exact nomatch h
    · intro hrange
      rw [if_pos hrange] at h
      exact ⟨_, Result.eq_ok_of_toOption h⟩
  · rw [hlabel label hok, Json.text.injEq, Int.repr_inj, ← representable_intCast_iff]
    constructor
    · rintro rfl
      exact hm ▸ representable_rounded _
    · intro hfits
      exact_mod_cast hm.symm.trans (rounded_eq_self hfits)

namespace Accessor

variable {field data name : Json}

theorem forLabel_integer (hname : field.field "name" = .ok name)
    (htype : field.lookup "type" = .ok (.text "integer")) :
    forLabel field data = .ok (.label name .integer (Row.isFeatureData data)) := by
  simp only [forLabel, hname, htype, Result.ok_bind]
  rfl

def HoldsInteger (features : Bool) (row name : Json) (n : Int) : Prop :=
  ∃ found, columns features row = .ok found ∧ found.lookupBy name = .ok (.int n)

/-- Labels of type `integer` show whole numbers as they are exactly if they have no more bits than a
floating-point number, and as the nearest such number otherwise. -/
theorem integer_labels (hname : field.field "name" = .ok name)
    (htype : field.lookup "type" = .ok (.text "integer")) :
    ∃ a, forLabel field data = .ok a ∧ ∀ row n info kept,
      HoldsInteger (Row.isFeatureData data) row name n →
        ShowsNearest n (a.callWith row info kept).1 := by
  refine ⟨_, forLabel_integer hname htype, ?_⟩
  rintro row n info kept ⟨found, hfound, hvalue⟩
  obtain ⟨m, hm⟩ := rounded_intCast n
  refine showsNearest_of_eq hm ?_
  have hcall : (callWith row info kept (.label name .integer (Row.isFeatureData data))).1 =
      ((TextFormat.nearestWhole (.int n)).map Decimal.integerText).map .text := by
    simp only [callWith, hfound, Except.bind, labelOfRow, hvalue, Result.ok_bind]
    rfl
  rw [hcall]
  rw [Result.toOption_map, Result.toOption_map, TextFormat.nearestWhole_int, nearestValue?, hm]
  split
  · simp [roundHalfEven_intCast, Decimal.integerText_eq]
  · rfl

def cellField : Json := .object [("name", .text "cell"), ("type", .text "integer")]

/-- A row with the index of a hexagon of the tenth resolution. -/
def cellRow : Json := .object [("cell", .int 622236750694711295)]

theorem integer_labels_cell : ∃ a, forLabel cellField (.list []) = .ok a ∧
    ShowsNearest 622236750694711295 (a.callWith cellRow none .nothing).1 := by
  have hname : cellField.field "name" = .ok (.text "cell") := rfl
  obtain ⟨a, hmade, hlabels⟩ := @integer_labels cellField (.list []) _ hname rfl
  exact ⟨a, hmade, hlabels cellRow _ none .nothing ⟨cellRow, rfl, rfl⟩⟩

/-- The label of a cell names another cell. -/
theorem cell_label_off : HoldsInteger false cellRow (.text "cell") 622236750694711295 ∧
    ∃ a, forLabel cellField (.list []) = .ok a ∧
      (a.callWith cellRow none .nothing).1 = .ok (.text "622236750694711296") ∧
      (622236750694711295 : Int).repr ≠ "622236750694711296" := by
  have hnearest : (TextFormat.nearestWhole (.int 622236750694711295)).toOption =
      some 622236750694711296 := by decide +kernel
  have hlabel : TextFormat.integer.label (.int 622236750694711295) = .ok "622236750694711296" := by
    rw [TextFormat.label, Result.eq_ok_of_toOption hnearest]
    rfl
  refine ⟨⟨cellRow, rfl, rfl⟩, _, rfl, ?_, by decide⟩
  change (TextFormat.integer.label (.int 622236750694711295)).map Json.text = _
  rw [hlabel]
  rfl

end Accessor

end MapLayers
