import Mathlib.Data.Rat.Cast.Order
import Mathlib.Tactic.FieldSimp
import Mathlib.Tactic.NormNum
import Mathlib.Tactic.Ring
import MapLayers.Label

/-!
# Labels as they are read

A compact label can be read back: a sign, digits with at most two behind a point, and the sign of a unit.
Leaving out the zeros at the end does not change the number that the digits denote.
-/

namespace MapLayers.Label

/-- The unit of numbers below a thousand, which has no sign. -/
def plain : LabelUnit := ⟨1, ""⟩

def unit? (suffix : String) : Option LabelUnit := (plain :: units).find? fun u => u.suffix = suffix

/-- What a label says: how many units of which kind. -/
structure Reading where
  negative : Bool
  mantissa : Rat
  unit : LabelUnit

def Reading.value (r : Reading) : Rat :=
  (if r.negative then -r.mantissa else r.mantissa) * r.unit.size

/-- Reads a label from its characters. -/
def readChars? (cs : List Char) : Option Reading :=
  let (negative, cs) := Json.splitSign cs
  let whole := cs.takeWhile Char.isDigit
  let (fraction, suffix) := match cs.dropWhile Char.isDigit with
    | '.' :: rest => (rest.takeWhile Char.isDigit, rest.dropWhile Char.isDigit)
    | rest => ([], rest)
  if whole.isEmpty then none
  else (unit? (String.ofList suffix)).map fun u =>
    ⟨negative, (Decimal.natOfDigits (whole ++ fraction) : Rat) / 10 ^ fraction.length, u⟩

def read? (label : String) : Option Reading := readChars? label.toList

section Digits

open Nat (digitChar toDigits)

theorem digitChar_value {d : Nat} (h : d < 10) : (digitChar d).toNat - '0'.toNat = d := by
  have hall : ∀ d < 10, (digitChar d).toNat - '0'.toNat = d := by decide
  exact hall d h

theorem digitChar_eq_zero {d : Nat} (h : d < 10) : digitChar d = '0' ↔ d = 0 := by
  have hall : ∀ d < 10, (digitChar d = '0' ↔ d = 0) := by decide
  exact hall d h

theorem natOfDigits_concat (cs : List Char) {d : Nat} (h : d < 10) :
    Decimal.natOfDigits (cs ++ [digitChar d]) = 10 * Decimal.natOfDigits cs + d := by
  simp only [Decimal.natOfDigits, List.foldl_append, List.foldl_cons, List.foldl_nil,
    digitChar_value h]

theorem natOfDigits_toDigits (n : Nat) : Decimal.natOfDigits (toDigits 10 n) = n :=
  Nat.ofDigitChars_toDigits (by decide) (by decide)

theorem padded_hundredths (h : Nat) : (Decimal.padded 3 (Decimal.digitText h)).toList =
    toDigits 10 (h / 100) ++ [digitChar (h / 10 % 10), digitChar (h % 10)] := by
  have hpadded : (Decimal.padded 3 (Decimal.digitText h)).toList =
      List.replicate (3 - (toDigits 10 h).length) '0' ++ toDigits 10 h := by
    simp [Decimal.padded, Decimal.zeros, Decimal.digitText]
  rw [hpadded]
  rcases Nat.lt_or_ge h 10 with hone | hten
  · have hdigits : toDigits 10 h = [digitChar h] := Nat.toDigits_of_lt_base hone
    rw [hdigits, Nat.div_eq_of_lt (by omega : h < 100), Nat.div_eq_of_lt hone, Nat.mod_eq_of_lt hone]
    rfl
  have hlast : toDigits 10 h = toDigits 10 (h / 10) ++ [digitChar (h % 10)] :=
    Nat.toDigits_of_base_le (by decide) hten
  rcases Nat.lt_or_ge h 100 with htwo | hmany
  · have hfirst : toDigits 10 (h / 10) = [digitChar (h / 10)] := Nat.toDigits_of_lt_base (by omega)
    rw [hlast, hfirst, Nat.div_eq_of_lt htwo, Nat.mod_eq_of_lt (by omega : h / 10 < 10)]
    rfl
  · have hmiddle : toDigits 10 (h / 10) = toDigits 10 (h / 100) ++ [digitChar (h / 10 % 10)] := by
      rw [Nat.toDigits_of_base_le (by decide) (by omega), Nat.div_div_eq_div_mul]
    have hlead : 0 < (toDigits 10 (h / 100)).length := Nat.length_toDigits_pos
    have hfull : 3 - (toDigits 10 h).length = 0 := by
      rw [hlast, hmiddle]
      simp only [List.length_append, List.length_singleton]
      omega
    rw [hfull, hlast, hmiddle]
    simp

end Digits

/-- A fraction with its point; an empty one has none. -/
def pointed : List Char → List Char
  | [] => []
  | fraction => '.' :: fraction

/-- Digits before and behind the point that write some hundredths. -/
structure Writes (hundredths : Nat) (text : String) (whole fraction : List Char) : Prop where
  toList : text.toList = whole ++ pointed fraction
  nonempty : whole ≠ []
  whole_digits : ∀ c ∈ whole, c.isDigit = true
  fraction_digits : ∀ c ∈ fraction, c.isDigit = true
  value : (Decimal.natOfDigits (whole ++ fraction) : Rat) / 10 ^ fraction.length = hundredths / 100

section Trimming

open Nat (digitChar toDigits)

theorem toList_placesText (h : Nat) : (Decimal.placesText 2 h).toList =
    toDigits 10 (h / 100) ++ ['.', digitChar (h / 10 % 10), digitChar (h % 10)] := by
  have htext : (Decimal.placesText 2 h).toList =
      let digits := (Decimal.padded 3 (Decimal.digitText h)).toList
      digits.take (digits.length - 2) ++ '.' :: digits.drop (digits.length - 2) := by
    simp [Decimal.placesText]
  rw [htext, padded_hundredths]
  simp

/-- The fraction without the zeros at its end. -/
def fractionOf (h : Nat) : List Char :=
  if h % 10 ≠ 0 then [digitChar (h / 10 % 10), digitChar (h % 10)]
  else if h / 10 % 10 ≠ 0 then [digitChar (h / 10 % 10)]
  else []

theorem toList_trimZeros (h : Nat) : (trimZeros (Decimal.placesText 2 h)).toList =
    toDigits 10 (h / 100) ++ pointed (fractionOf h) := by
  have hpoint : digitChar (h % 10) ≠ '.' ∧ digitChar (h / 10 % 10) ≠ '.' := by
    have hall : ∀ d < 10, digitChar d ≠ '.' := by decide
    exact ⟨hall _ (Nat.mod_lt _ (by decide)), hall _ (Nat.mod_lt _ (by decide))⟩
  have hlast := digitChar_eq_zero (Nat.mod_lt h (by decide : 0 < 10))
  have hfirst := digitChar_eq_zero (Nat.mod_lt (h / 10) (by decide : 0 < 10))
  simp only [trimZeros, toList_placesText, fractionOf, List.reverse_append, List.reverse_cons,
    List.reverse_nil, List.nil_append, List.cons_append, List.dropWhile_cons, decide_eq_true_eq]
  split_ifs <;> simp_all [pointed]

theorem writes_trimZeros (h : Nat) :
    Writes h (trimZeros (Decimal.placesText 2 h)) (toDigits 10 (h / 100)) (fractionOf h) := by
  have hlast : h % 10 < 10 := Nat.mod_lt _ (by decide)
  have hfirst : h / 10 % 10 < 10 := Nat.mod_lt _ (by decide)
  refine ⟨toList_trimZeros h, Nat.toDigits_ne_nil, fun c hc => ?_, fun c hc => ?_, ?_⟩
  · exact Nat.isDigit_of_mem_toDigits (by decide) (by decide) hc
  · unfold fractionOf at hc
    split_ifs at hc <;> simp only [List.mem_cons, List.not_mem_nil, or_false] at hc
    · rcases hc with rfl | rfl <;> simp [Nat.isDigit_digitChar, hlast, hfirst]
    · rw [hc]
      simp [Nat.isDigit_digitChar, hfirst]
  · have hone := natOfDigits_concat (toDigits 10 (h / 100)) hfirst
    have htwo := natOfDigits_concat (toDigits 10 (h / 100) ++ [digitChar (h / 10 % 10)]) hlast
    rw [natOfDigits_toDigits] at hone
    rw [hone, List.append_assoc, List.singleton_append] at htwo
    unfold fractionOf
    split_ifs with h₁ h₂
    · rw [htwo, show 10 * (10 * (h / 100) + h / 10 % 10) + h % 10 = h by omega]
      norm_num
    · have hh : (h : Rat) = 10 * (10 * (h / 100) + h / 10 % 10 : Nat) := by
        exact_mod_cast (by omega : h = 10 * (10 * (h / 100) + h / 10 % 10))
      rw [hone, hh, List.length_singleton]
      ring
    · have hh : (h : Rat) = 100 * (h / 100 : Nat) := by
        exact_mod_cast (by omega : h = 100 * (h / 100))
      rw [List.append_nil, natOfDigits_toDigits, hh, List.length_nil]
      ring

end Trimming

/-- What stands behind a number is no part of it. -/
def EndsNumber (cs : List Char) : Prop := ∀ c ∈ cs.head?, c.isDigit = false ∧ c ≠ '.'

variable {whole fraction suffix : List Char}

theorem takeWhile_digits {cs rest : List Char} (hcs : ∀ c ∈ cs, c.isDigit = true)
    (hrest : ∀ c ∈ rest.head?, c.isDigit = false) :
    (cs ++ rest).takeWhile Char.isDigit = cs ∧ (cs ++ rest).dropWhile Char.isDigit = rest := by
  rw [List.takeWhile_append_of_pos hcs, List.dropWhile_append_of_pos hcs]
  cases rest with
  | nil => simp
  | cons c rest => simp [hrest c (by simp)]

theorem splitSign_digits {cs : List Char} (h : ∀ c ∈ cs.head?, c.isDigit = true) :
    Json.splitSign cs = (false, cs) := by
  unfold Json.splitSign
  split
  · exact absurd (h '-' (by simp)) (by decide)
  · exact absurd (h '+' (by simp)) (by decide)
  · rfl

/-- A number with its fraction and what stands behind it. -/
theorem readChars?_number {h : Nat} {text : String} (hwrites : Writes h text whole fraction)
    (hsuffix : EndsNumber suffix) (negative : Bool) :
    readChars? ((if negative then ['-'] else []) ++ (whole ++ pointed fraction) ++ suffix) =
      (unit? (String.ofList suffix)).map fun u => ⟨negative, (h : Rat) / 100, u⟩ := by
  obtain ⟨first, rest, rfl⟩ := List.exists_cons_of_ne_nil hwrites.nonempty
  have hsign : Json.splitSign ((if negative then ['-'] else []) ++
      (first :: rest ++ pointed fraction) ++ suffix) =
      (negative, first :: rest ++ (pointed fraction ++ suffix)) := by
    cases negative with
    | true => simp [Json.splitSign]
    | false =>
      have hfirst := hwrites.whole_digits first (by simp)
      rw [splitSign_digits (by simpa using hfirst)]
      simp
  have hbehind : ∀ c ∈ (pointed fraction ++ suffix).head?, c.isDigit = false := by
    intro c hc
    cases fraction with
    | nil => exact (hsuffix c hc).1
    | cons d ds =>
      obtain rfl : '.' = c := by simpa [pointed] using hc
      rfl
  obtain ⟨htaken, hdropped⟩ := takeWhile_digits hwrites.whole_digits hbehind
  have hfraction : (match pointed fraction ++ suffix with
      | '.' :: rest => (rest.takeWhile Char.isDigit, rest.dropWhile Char.isDigit)
      | rest => ([], rest)) = (fraction, suffix) := by
    cases fraction with
    | nil =>
      cases suffix with
      | nil => rfl
      | cons c cs =>
        have hpoint := (hsuffix c (by simp)).2
        simp [pointed, hpoint]
    | cons d ds =>
      obtain ⟨hds, hcs⟩ := takeWhile_digits hwrites.fraction_digits fun c hc => (hsuffix c hc).1
      simp only [pointed, List.cons_append] at hds hcs ⊢
      rw [hds, hcs]
  simp only [readChars?, hsign, htaken, hdropped, hfraction]
  rw [if_neg (by simp), hwrites.value]

theorem endsNumber_suffix {u : LabelUnit} (h : u ∈ plain :: units) : EndsNumber u.suffix.toList := by
  simp only [plain, units, List.mem_cons, List.not_mem_nil, or_false] at h
  rcases h with rfl | rfl | rfl | rfl | rfl <;> simp [EndsNumber]

theorem unit?_suffix {u : LabelUnit} (h : u ∈ plain :: units) : unit? u.suffix = some u := by
  simp only [plain, units, List.mem_cons, List.not_mem_nil, or_false] at h
  rcases h with rfl | rfl | rfl | rfl | rfl <;> rfl

theorem read?_text {c : Compact} {u : LabelUnit} (hu : u ∈ plain :: units) (hc : c.suffix = u.suffix) :
    read? c.text = some ⟨c.negative, (c.hundredths : Rat) / 100, u⟩ := by
  have hwrites := writes_trimZeros c.hundredths
  have hsign : (if c.negative then "-" else "").toList = if c.negative then ['-'] else [] := by
    cases c.negative <;> rfl
  rw [read?, Compact.text, String.toList_append, String.toList_append, hwrites.toList, hsign, hc,
    readChars?_number hwrites (endsNumber_suffix hu), String.ofList_toList, unit?_suffix hu,
    Option.map_some]

end MapLayers.Label
