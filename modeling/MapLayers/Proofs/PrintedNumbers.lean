import MapLayers.Json.Reader
import MapLayers.Json.Writer
import MapLayers.Proofs.LabelTexts
import MapLayers.Proofs.ShortestDecimals

/-!
# Printed numbers

A number is read back from the text that has been written for it. Whole numbers are their digits. The text of
a floating-point number denotes its shortest decimal, wherever the point stands, and the decimal rounds to
the number.
-/

namespace MapLayers

namespace Decimal

open Nat (digitChar toDigits)

theorem natOfDigits_append (cs ds : List Char) :
    natOfDigits (cs ++ ds) = natOfDigits cs * 10 ^ ds.length + natOfDigits ds := by
  induction ds using List.reverseRecOn with
  | nil => simp [natOfDigits]
  | append_singleton ds d ih =>
    have hlast (es : List Char) :
        natOfDigits (es ++ [d]) = 10 * natOfDigits es + (d.toNat - '0'.toNat) := by
      simp [natOfDigits]
    rw [← List.append_assoc, hlast, hlast, ih, List.length_append, List.length_singleton]
    ring

theorem natOfDigits_zeros (n : Nat) : natOfDigits (List.replicate n '0') = 0 := by
  induction n with
  | zero => rfl
  | succ n ih => rw [List.replicate_succ', natOfDigits_append, ih]; rfl

theorem natOfDigits_zeros_append (n : Nat) (cs : List Char) :
    natOfDigits (List.replicate n '0' ++ cs) = natOfDigits cs := by
  rw [natOfDigits_append, natOfDigits_zeros, zero_mul, zero_add]

theorem isDigit_of_mem_zeros {n : Nat} {c : Char} (h : c ∈ List.replicate n '0') : c.isDigit = true := by
  rw [List.eq_of_mem_replicate h]
  rfl

theorem isDigit_of_mem_toDigits {n : Nat} {c : Char} (h : c ∈ toDigits 10 n) : c.isDigit = true :=
  Nat.isDigit_of_mem_toDigits (by decide) (by decide) h

/-- The digits of a positive number, the first of which is not zero. -/
theorem toDigits_eq_cons {n : Nat} (hn : n ≠ 0) : ∃ c cs, toDigits 10 n = c :: cs ∧ c ≠ '0' := by
  induction n using Nat.strongRecOn with
  | ind n ih =>
    rcases Nat.lt_or_ge n 10 with hone | hmore
    · refine ⟨digitChar n, [], Nat.toDigits_of_lt_base hone, ?_⟩
      rwa [ne_eq, Label.digitChar_eq_zero hone]
    · obtain ⟨c, cs, hdigits, hc⟩ := ih (n / 10) (by omega) (by omega)
      refine ⟨c, cs ++ [digitChar (n % 10)], ?_, hc⟩
      rw [Nat.toDigits_of_base_le (by decide) hmore, hdigits, List.cons_append]

theorem toList_digitText (n : Nat) : (digitText n).toList = toDigits 10 n := by simp [digitText]

theorem toList_zeros (n : Nat) : (zeros n).toList = List.replicate n '0' := by simp [zeros]

end Decimal

namespace Json

open Decimal
open Label (pointed takeWhile_digits)
open Nat (toDigits)

/-- What stands behind a written value: a comma, a line break or nothing. -/
def EndsValue (rest : List Char) : Prop := ∀ c ∈ rest.head?, c = ',' ∨ c = '\n'

variable {whole fraction digits rest : List Char} {c : Char} {negative : Bool}

theorem EndsValue.not_digit (h : EndsValue rest) : ∀ c ∈ rest.head?, c.isDigit = false := by
  intro c hc
  rcases h c hc with rfl | rfl <;> rfl

theorem splitWhole_digits (hc : c.isDigit = true) (hzero : c ≠ '0')
    (hdigits : ∀ d ∈ digits, d.isDigit = true) (hrest : ∀ d ∈ rest.head?, d.isDigit = false) :
    splitWhole (c :: digits ++ rest) = some (c :: digits, rest) := by
  obtain ⟨htaken, hdropped⟩ := takeWhile_digits hdigits hrest
  rw [List.cons_append]
  unfold splitWhole
  split
  · next heq => exact absurd (List.cons.inj heq).1 hzero
  · next heq =>
    obtain ⟨rfl, rfl⟩ := List.cons.inj heq
    rw [if_pos hc, htaken, hdropped]
  · next heq => exact absurd heq (by simp)

theorem splitFraction_digits (hne : fraction ≠ []) (hfraction : ∀ d ∈ fraction, d.isDigit = true)
    (hrest : ∀ d ∈ rest.head?, d.isDigit = false) :
    splitFraction ('.' :: fraction ++ rest) = (fraction, rest) := by
  obtain ⟨c, cs, rfl⟩ := List.exists_cons_of_ne_nil hne
  obtain ⟨htaken, hdropped⟩ := takeWhile_digits (fun d hd => hfraction d (List.mem_cons_of_mem c hd)) hrest
  have hc := hfraction c List.mem_cons_self
  simp only [List.cons_append, splitFraction, hc, if_true, htaken, hdropped]

theorem splitFraction_of_ends (hrest : ∀ d ∈ rest.head?, d ≠ '.') : splitFraction rest = ([], rest) := by
  unfold splitFraction
  split
  · exact absurd rfl (hrest '.' rfl)
  · rfl

theorem splitExponent?_of_ends (hrest : EndsValue rest) : splitExponent? rest = none := by
  unfold splitExponent?
  split
  · next e _ =>
    rcases hrest e rfl with rfl | rfl <;> rfl
  · rfl

theorem splitExponent?_digits (minus : Bool) (hne : digits ≠ []) (hdigits : ∀ d ∈ digits, d.isDigit = true)
    (hrest : ∀ d ∈ rest.head?, d.isDigit = false) :
    splitExponent? ('e' :: (if minus then '-' else '+') :: (digits ++ rest)) =
      some (if minus then -(natOfDigits digits : Int) else natOfDigits digits, rest) := by
  obtain ⟨htaken, hdropped⟩ := takeWhile_digits hdigits hrest
  have hfull : digits.isEmpty = false := by simpa using hne
  cases minus <;> simp [splitExponent?, htaken, hdropped, hfull]

theorem readNumber_whole (negative : Bool) (hwhole : splitWhole (whole ++ rest) = some (whole, rest))
    (hfits : whole.length ≤ maxDigits) (hrest : EndsValue rest) :
    readNumber negative (whole ++ rest) =
      .ok (int (if negative then -(natOfDigits whole : Int) else natOfDigits whole), rest) := by
  have hpoint : ∀ d ∈ rest.head?, d ≠ '.' := by
    intro d hd
    rcases hrest d hd with rfl | rfl <;> decide
  unfold readNumber
  simp [hwhole, splitFraction_of_ends hpoint, splitExponent?_of_ends hrest, Nat.not_lt.mpr hfits]

/-- A number with a point. -/
theorem readNumber_pointed (negative : Bool)
    (hwhole : splitWhole (whole ++ ('.' :: fraction ++ rest)) = some (whole, '.' :: fraction ++ rest))
    (hne : fraction ≠ []) (hfraction : ∀ d ∈ fraction, d.isDigit = true) (hrest : EndsValue rest) :
    readNumber negative (whole ++ ('.' :: fraction ++ rest)) =
      .ok (float (Binary64.ofDecimal negative (natOfDigits (whole ++ fraction)) (-fraction.length)),
        rest) := by
  have hfull : fraction.isEmpty = false := by simpa using hne
  unfold readNumber
  rw [hwhole]
  simp only [splitFraction_digits hne hfraction hrest.not_digit, splitExponent?_of_ends hrest, hfull,
    Bool.false_and, Bool.false_eq_true, if_false, Option.getD_none, zero_sub]

/-- A number with an exponent. -/
theorem readNumber_exponent (negative minus : Bool) (hc : c.isDigit = true) (hzero : c ≠ '0')
    (hfraction : ∀ d ∈ fraction, d.isDigit = true) (hne : digits ≠ [])
    (hdigits : ∀ d ∈ digits, d.isDigit = true) (hrest : EndsValue rest) :
    readNumber negative (c :: pointed fraction ++
        ('e' :: (if minus then '-' else '+') :: (digits ++ rest))) =
      .ok (float (Binary64.ofDecimal negative (natOfDigits (c :: fraction))
        ((if minus then -(natOfDigits digits : Int) else natOfDigits digits) - fraction.length)),
        rest) := by
  have hexponent := splitExponent?_digits minus hne hdigits hrest.not_digit
  generalize hbehind : 'e' :: (if minus then '-' else '+') :: (digits ++ rest) = behind at *
  have hletter : ∀ d ∈ behind.head?, d = 'e' := by
    intro d hd
    rw [← hbehind] at hd
    simpa [eq_comm] using hd
  have hwhole : splitWhole (c :: pointed fraction ++ behind) = some ([c], pointed fraction ++ behind) := by
    have hpoint : ∀ d ∈ (pointed fraction ++ behind).head?, d.isDigit = false := by
      intro d hd
      cases fraction with
      | nil => rw [hletter d hd]; rfl
      | cons f fs =>
        obtain rfl : '.' = d := by simpa [pointed] using hd
        rfl
    show splitWhole (c :: [] ++ (pointed fraction ++ behind)) = _
    exact splitWhole_digits hc hzero (by simp) hpoint
  have hsplit : splitFraction (pointed fraction ++ behind) = (fraction, behind) := by
    cases fraction with
    | nil =>
      refine splitFraction_of_ends fun d hd => ?_
      rw [hletter d hd]
      decide
    | cons f fs =>
      refine splitFraction_digits (by simp) hfraction fun d hd => ?_
      rw [hletter d hd]
      rfl
  unfold readNumber
  simp only [hwhole, hsplit, hexponent, Option.isNone_some, Bool.and_false, Bool.false_eq_true, if_false,
    Option.getD_some, List.singleton_append]

section Render

variable {l : Layout} {d : Scientific} {cs : List Char}

/-- A text in which a decimal is read, by another significand and exponent perhaps. -/
def ReadsAs (text : List Char) (d : Scientific) : Prop :=
  ∃ (m : Nat) (e : Int), (m : Rat) * 10 ^ e = d.value ∧ ∀ negative rest, EndsValue rest →
    readNumber negative (text ++ rest) = .ok (float (Binary64.ofDecimal negative m e), rest)

/-- The digits of a decimal, split after the first one. -/
structure HasDigits (d : Scientific) (c : Char) (cs : List Char) : Prop where
  text : (digitText d.digits).toList = c :: cs
  nonzero : c ≠ '0'
  digit : c.isDigit = true
  digits : ∀ x ∈ cs, x.isDigit = true
  value : natOfDigits (c :: cs) = d.digits

theorem exists_hasDigits (hd : d.digits ≠ 0) : ∃ c cs, HasDigits d c cs := by
  obtain ⟨c, cs, hdigits, hc⟩ := toDigits_eq_cons hd
  have hall : ∀ x ∈ c :: cs, x.isDigit = true := fun x hx => isDigit_of_mem_toDigits (hdigits ▸ hx)
  refine ⟨c, cs, (toList_digitText _).trans hdigits, hc, hall c List.mem_cons_self,
    fun x hx => hall x (List.mem_cons_of_mem c hx), ?_⟩
  rw [← hdigits]
  exact Label.natOfDigits_toDigits _

theorem HasDigits.length (h : HasDigits d c cs) : (digitText d.digits).length = cs.length + 1 := by
  rw [← String.length_toList, h.text, List.length_cons]

theorem readsAs_exponent (h : HasDigits d c cs) (minus : Bool)
    (hdigits : ∀ x ∈ digits, x.isDigit = true) (hne : digits ≠ [])
    (hexponent : (if minus then -(natOfDigits digits : Int) else natOfDigits digits) =
      d.exponent + cs.length) :
    ReadsAs (c :: pointed cs ++ 'e' :: (if minus then '-' else '+') :: digits) d := by
  refine ⟨d.digits, d.exponent, rfl, fun negative rest hrest => ?_⟩
  have hread := readNumber_exponent negative minus h.digit h.nonzero h.digits hne hdigits hrest
  rw [hexponent, h.value, add_sub_cancel_right] at hread
  rw [List.append_assoc]
  exact hread

theorem readsAs_pointed
    (hwhole : ∀ rest, (∀ x ∈ rest.head?, x.isDigit = false) →
      splitWhole (whole ++ rest) = some (whole, rest))
    (hne : fraction ≠ []) (hfraction : ∀ x ∈ fraction, x.isDigit = true)
    (hvalue : (natOfDigits (whole ++ fraction) : Rat) * 10 ^ (-(fraction.length : Int)) = d.value) :
    ReadsAs (whole ++ '.' :: fraction) d := by
  refine ⟨_, _, hvalue, fun negative rest hrest => ?_⟩
  have hpoint : ∀ x ∈ ('.' :: fraction ++ rest).head?, x.isDigit = false := by
    intro x hx
    obtain rfl : '.' = x := by simpa using hx
    rfl
  rw [List.append_assoc]
  exact readNumber_pointed negative (hwhole _ hpoint) hne hfraction hrest

/-- Below one the digits stand behind zeros. -/
theorem readsAs_small (h : HasDigits d c cs) {k : Nat} (hexponent : d.exponent = -(k + cs.length + 1)) :
    ReadsAs (['0'] ++ '.' :: (List.replicate k '0' ++ c :: cs)) d := by
  refine readsAs_pointed (fun rest _ => rfl) (by simp) ?_ ?_
  · intro x hx
    rcases List.mem_append.mp hx with hzero | hdigit
    · exact isDigit_of_mem_zeros hzero
    · rcases List.mem_cons.mp hdigit with rfl | hx
      · exact h.digit
      · exact h.digits x hx
  · have hsame : natOfDigits (['0'] ++ (List.replicate k '0' ++ c :: cs)) = d.digits := by
      rw [← List.append_assoc]
      exact (natOfDigits_zeros_append (k + 1) (c :: cs)).trans h.value
    rw [hsame, Scientific.value, hexponent]
    simp [add_assoc]

/-- A whole number with zeros behind its digits. -/
theorem readsAs_large (h : HasDigits d c cs) {k : Nat} (hexponent : d.exponent = k) :
    ReadsAs (c :: (cs ++ List.replicate k '0') ++ '.' :: ['0']) d := by
  have hall : ∀ x ∈ cs ++ List.replicate k '0', x.isDigit = true := by
    intro x hx
    rcases List.mem_append.mp hx with hx | hx
    · exact h.digits x hx
    · exact isDigit_of_mem_zeros hx
  refine readsAs_pointed (fun rest hrest => splitWhole_digits h.digit h.nonzero hall hrest) (by simp)
    (by simp) ?_
  have hsame : natOfDigits (c :: (cs ++ List.replicate k '0') ++ ['0']) = d.digits * 10 ^ (k + 1) := by
    have hzeros : c :: (cs ++ List.replicate k '0') ++ ['0'] = c :: cs ++ List.replicate (k + 1) '0' := by
      simp [List.replicate_succ']
    rw [hzeros, natOfDigits_append, natOfDigits_zeros, h.value, List.length_replicate, add_zero]
  rw [hsame, Scientific.value, hexponent]
  push_cast
  rw [zpow_natCast, List.length_singleton, pow_succ]
  norm_num
  ring

theorem readsAs_middle (h : HasDigits d c cs) (k : Nat) (hk : k < cs.length)
    (hexponent : d.exponent = -(cs.length - k)) :
    ReadsAs (c :: cs.take k ++ '.' :: cs.drop k) d := by
  have hwhole : ∀ x ∈ cs.take k, x.isDigit = true := fun x hx => h.digits x (List.mem_of_mem_take hx)
  refine readsAs_pointed (fun rest hrest => splitWhole_digits h.digit h.nonzero hwhole hrest)
    (by simpa using hk) (fun x hx => h.digits x (List.mem_of_mem_drop hx)) ?_
  rw [List.cons_append, List.take_append_drop, h.value, Scientific.value, hexponent, List.length_drop,
    Nat.cast_sub hk.le]

theorem signed_natAbs (n : Int) :
    (if decide (n < 0) = true then -(n.natAbs : Int) else n.natAbs) = n := by
  by_cases hn : n < 0
  · simp only [hn, decide_true, if_true]
    omega
  · simp only [hn, decide_false, Bool.false_eq_true, if_false]
    omega

/-- The digits of an exponent, with zeros in front. -/
theorem padded_digits (width n : Nat) : let cs := (padded width (digitText n)).toList
    cs ≠ [] ∧ (∀ x ∈ cs, x.isDigit = true) ∧ natOfDigits cs = n := by
  have htext : (padded width (digitText n)).toList =
      List.replicate (width - (digitText n).length) '0' ++ toDigits 10 n := by
    rw [padded, String.toList_append, toList_zeros, toList_digitText]
  dsimp only
  rw [htext, natOfDigits_zeros_append]
  refine ⟨by simp [Nat.toDigits_ne_nil], fun x hx => ?_, Label.natOfDigits_toDigits n⟩
  rcases List.mem_append.mp hx with hx | hx
  · exact isDigit_of_mem_zeros hx
  · exact isDigit_of_mem_toDigits hx

/-- A decimal is read as it has been laid out, wherever the layout puts its point. -/
theorem readsAs_render (l : Layout) (hd : d.digits ≠ 0) : ReadsAs (l.render d).toList d := by
  obtain ⟨c, cs, h⟩ := exists_hasDigits hd
  have hlead : d.exponent + ((cs.length + 1 : Nat) : Int) - 1 = d.exponent + cs.length := by
    push_cast
    ring
  unfold Layout.render
  dsimp only
  rw [h.length, hlead, h.text]
  split
  · have hmantissa : (if ((cs.length + 1 : Nat) : Int) = 1 then digitText d.digits
        else String.ofList ((c :: cs).take 1 ++ '.' :: (c :: cs).drop 1)).toList = c :: pointed cs := by
      cases cs with
      | nil => exact h.text
      | cons x xs =>
        rw [if_neg (by simp; omega)]
        simp [pointed]
    have hsign : (if d.exponent + (cs.length : Int) < 0 then "-" else "+").toList =
        [if d.exponent + (cs.length : Int) < 0 then '-' else '+'] := by
      split <;> rfl
    obtain ⟨hne, hdigits, hnatural⟩ := padded_digits l.exponentDigits (d.exponent + cs.length).natAbs
    rw [String.toList_append, String.toList_append, String.toList_append, hmantissa, hsign]
    generalize (padded l.exponentDigits (digitText (d.exponent + cs.length).natAbs)).toList = digits at *
    have hexponent := signed_natAbs (d.exponent + cs.length)
    rw [← hnatural] at hexponent
    simpa using readsAs_exponent h _ hdigits hne hexponent
  · split
    · next hsmall =>
      rw [String.toList_append, String.toList_append, toList_zeros, h.text]
      exact readsAs_small h (by omega)
    · next hnonneg =>
      split
      · next hlarge =>
        have hread := readsAs_large h (Int.toNat_of_nonneg hlarge).symm
        rw [String.toList_append, String.toList_append, toList_zeros, h.text]
        simpa using hread
      · next hmiddle =>
        have hread := readsAs_middle h (d.exponent + cs.length).toNat (by omega) (by omega)
        have hwhole : (d.exponent + (cs.length : Int) + 1).toNat = (d.exponent + cs.length).toNat + 1 := by
          omega
        rw [String.toList_ofList, hwhole, List.take_succ_cons, List.drop_succ_cons]
        exact hread

end Render

section Values

variable {fuel depth : Nat} {cs : List Char} {r : Json × List Char}

theorem digit_of_readNumber (h : readNumber negative cs = .ok r) :
    ∃ c rest, cs = c :: rest ∧ c.isDigit = true := by
  have hsome : splitWhole cs ≠ none := by
    intro hnone
    simp [readNumber, hnone] at h
  unfold splitWhole at hsome
  split at hsome
  · exact ⟨'0', _, rfl, rfl⟩
  · next c rest _ =>
    by_cases hc : c.isDigit = true
    · exact ⟨c, rest, rfl, hc⟩
    · simp [hc] at hsome
  · simp at hsome

theorem eq_digitChar {c : Char} (hc : c.isDigit = true) : ∃ n < 10, c = Nat.digitChar n := by
  simp only [Char.isDigit, ge_iff_le, Bool.and_eq_true, decide_eq_true_eq, UInt32.le_iff_toNat_le] at hc
  obtain ⟨hlow, hhigh⟩ : 48 ≤ c.toNat ∧ c.toNat ≤ 57 := hc
  refine ⟨c.toNat - 48, by omega, Char.toNat_inj.mp ?_⟩
  rw [Nat.toNat_digitChar_of_lt_ten (by omega)]
  omega

/-- What starts with a digit is a number, also behind a sign. -/
theorem readValue_digit {c : Char} (hc : c.isDigit = true) (negative : Bool) (rest : List Char) :
    readValue (fuel + 1) depth (if negative then '-' :: c :: rest else c :: rest) =
      readNumber negative (c :: rest) := by
  obtain ⟨n, hn, rfl⟩ := eq_digitChar hc
  cases negative <;> interval_cases n <;> rfl

/-- A number that can be read is a value, with a sign in front if it has one. -/
theorem readValue_of_readNumber (h : readNumber negative (cs ++ rest) = .ok r) :
    readValue (fuel + 1) depth ((if negative then '-' :: cs else cs) ++ rest) = .ok r := by
  obtain ⟨c, others, hstart, hc⟩ := digit_of_readNumber h
  have hsigned : (if negative then '-' :: cs else cs) ++ rest =
      if negative then '-' :: c :: others else c :: others := by
    rw [← hstart]
    cases negative <;> rfl
  rw [hsigned, readValue_digit hc, ← hstart, h]

theorem splitWhole_toDigits (n : Nat) (hrest : ∀ x ∈ rest.head?, x.isDigit = false) :
    splitWhole (toDigits 10 n ++ rest) = some (toDigits 10 n, rest) := by
  by_cases hn : n = 0
  · rw [hn]
    rfl
  · obtain ⟨c, cs, hdigits, hc⟩ := toDigits_eq_cons hn
    have hall : ∀ x ∈ c :: cs, x.isDigit = true := fun x hx => isDigit_of_mem_toDigits (hdigits ▸ hx)
    rw [hdigits]
    exact splitWhole_digits (hall c List.mem_cons_self) hc
      (fun x hx => hall x (List.mem_cons_of_mem c hx)) hrest

theorem toList_integerText (n : Int) : (integerText n).toList =
    if decide (n < 0) then '-' :: toDigits 10 n.natAbs else toDigits 10 n.natAbs := by
  unfold integerText
  by_cases hn : n < 0
  · simp [hn, toList_digitText]
  · simp [hn, toList_digitText]

theorem readValue_int {n : Int} (hfits : (digitText n.natAbs).length ≤ maxDigits) (hrest : EndsValue rest) :
    readValue (fuel + 1) depth ((integerText n).toList ++ rest) = .ok (int n, rest) := by
  have hlength : (toDigits 10 n.natAbs).length ≤ maxDigits := by
    rwa [← toList_digitText, String.length_toList]
  have hread := readNumber_whole (decide (n < 0)) (splitWhole_toDigits n.natAbs hrest.not_digit) hlength
    hrest
  rw [Label.natOfDigits_toDigits, signed_natAbs] at hread
  rw [toList_integerText]
  exact readValue_of_readNumber hread

theorem readNumber_zero (negative : Bool) (hrest : EndsValue rest) :
    readNumber negative ("0.0".toList ++ rest) = .ok (float (if negative then -0 else 0), rest) := by
  have hwhole : splitWhole (['0'] ++ ('.' :: ['0'] ++ rest)) = some (['0'], '.' :: ['0'] ++ rest) := rfl
  have hread := readNumber_pointed negative hwhole (by simp) (by simp) hrest
  exact hread

/-- A finite number is read back from its shortest decimal. -/
theorem readNumber_magnitude {x : Float} (hfinite : Binary64.isFinite x = true) (hrest : EndsValue rest) :
    readNumber (Binary64.signBit x) ((if Binary64.magnitude x = 0 then "0.0"
      else layout.render (shortest x)).toList ++ rest) = .ok (float x, rest) := by
  split
  · next hzero => rw [readNumber_zero _ hrest, Binary64.eq_of_magnitude_eq_zero hzero]
  · next hne =>
    have hpos := lt_of_le_of_ne (Binary64.magnitude_nonneg x) (Ne.symm hne)
    obtain ⟨hvalue, hrounds⟩ := rounded_shortest hpos
    have hdigits : (shortest x).digits ≠ 0 := by
      intro hzero
      simp [Scientific.value, hzero] at hvalue
    obtain ⟨m, e, hsame, hread⟩ := readsAs_render layout hdigits
    rw [← hsame] at hvalue hrounds
    rw [hread _ rest hrest, Binary64.ofDecimal_eq hfinite hpos hvalue hrounds]

theorem toList_numberText {x : Float} (hfinite : Binary64.isFinite x = true) :
    let magnitude := (if Binary64.magnitude x = 0 then "0.0" else layout.render (shortest x)).toList
    (numberText x).toList = if Binary64.signBit x then '-' :: magnitude else magnitude := by
  have hnumber : Binary64.isNaN x = false := by
    unfold Binary64.isFinite at hfinite
    unfold Binary64.isNaN
    simp_all
  cases hsign : Binary64.signBit x <;> simp [numberText, floatText, hnumber, hfinite, hsign]

/-- A floating-point number is read back, and so are infinities and what is no number. -/
theorem readValue_float (x : Float) (hrest : EndsValue rest) :
    readValue (fuel + 1) depth ((numberText x).toList ++ rest) = .ok (float x, rest) := by
  cases hfinite : Binary64.isFinite x with
  | true =>
    rw [toList_numberText hfinite]
    exact readValue_of_readNumber (readNumber_magnitude hfinite hrest)
  | false =>
    cases hnumber : Binary64.isNaN x with
    | true =>
      rw [Binary64.eq_notANumber hnumber]
      rfl
    | false =>
      have hinfinite := Binary64.eq_infinity hfinite hnumber
      have htext : numberText x = if Binary64.signBit x then "-Infinity" else "Infinity" := by
        simp [numberText, hnumber, hfinite]
      rw [htext]
      cases hsign : Binary64.signBit x <;> rw [hsign] at hinfinite <;> rw [← hinfinite] <;> rfl

end Values

end Json

end MapLayers
