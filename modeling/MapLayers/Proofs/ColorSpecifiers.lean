import MapLayers.Proofs.HueParts

/-!
# What color specifiers say

A specifier has one of five forms, and its form tells which of its channels can leave the bytes: digits and
names cannot, plain numbers and percentages are taken as they are written, and the channels of a hue are
computed. What a specifier gives is a byte color exactly if none of its channels leaves them.
-/

namespace MapLayers.Color

open Binary64

/-- Whether a channel is a byte. -/
def IsByte (n : Int) : Prop := 0 ≤ n ∧ n ≤ 255

instance (n : Int) : Decidable (IsByte n) := inferInstanceAs (Decidable (_ ∧ _))

structure InBytes (c : Color) : Prop where
  red : IsByte c.red
  green : IsByte c.green
  blue : IsByte c.blue
  alpha : IsByte c.alpha

theorem isByte_full : IsByte 255 := by decide

/-- What a specifier says, before its channels are computed. Percentages stand for hundredths. -/
inductive Specifier where
  /-- Digits or a name. -/
  | literal (color : Color)
  | numbers (red green blue alpha : Nat)
  | percentages (red green blue : Nat)
  | lightness (hue saturation lightness : Float)
  | value (hue saturation value : Float)

namespace Specifier

/-- The parts of one that the channels of a hue are made from. -/
def lightnessParts (hue saturation lightness : Float) : Float × Float × Float :=
  ofLightness (hue / 360) (lightness / 100) (saturation / 100)

def valueParts (hue saturation value : Float) : Float × Float × Float :=
  ofValue (hue / 360) (saturation / 100) (value / 100)

def color : Specifier → Color
  | literal color => color
  | numbers red green blue alpha => ⟨red, green, blue, alpha⟩
  | percentages red green blue =>
    ⟨byteOfPercent red, byteOfPercent green, byteOfPercent blue, 255⟩
  | lightness h s l => ofParts (lightnessParts h s l)
  | value h s v => ofParts (valueParts h s v)

def readRgb? (cs : List Char) : Option Specifier := do
  let body ← afterOpening? "rgb(" cs
  match triple? whole whole whole body with
  | some (r, g, b) => return numbers r g b 255
  | none =>
    let (r, g, b) ← triple? (percent whole) (percent whole) (percent whole) body
    return percentages r g b

def readRgba? (cs : List Char) : Option Specifier := do
  let body ← afterOpening? "rgba(" cs
  let (r, g, b, a) ← quadruple? whole body
  return numbers r g b a

def readHsl? (cs : List Char) : Option Specifier := do
  let body ← afterOpening? "hsl(" cs
  let (h, s, l) ← triple? decimal (percent decimal) (percent decimal) body
  return lightness h s l

def readHsv? (cs : List Char) : Option Specifier := do
  let body ← (afterOpening? "hsv(" cs).or (afterOpening? "hsb(" cs)
  let (h, s, v) ← triple? decimal (percent decimal) (percent decimal) body
  return value h s v

def readWord? (cs : List Char) : Option Specifier :=
  match names.lookup (String.ofList cs) with
  | some rgb => some (literal (ofBytes rgb))
  | none => readRgb? cs <|> readRgba? cs <|> readHsl? cs <|> readHsv? cs

/-- The form of a lower-case specifier. -/
def read? (cs : List Char) : Option Specifier :=
  match cs with
  | '#' :: digits => (ofHex? digits).map literal
  | _ => readWord? cs

variable (cs : List Char)

theorem ofRgb?_eq : ofRgb? cs = (readRgb? cs).map color := by
  unfold ofRgb? readRgb?
  cases afterOpening? "rgb(" cs with
  | none => rfl
  | some body =>
    dsimp only [Option.bind_eq_bind, Option.bind_some]
    cases triple? whole whole whole body with
    | some found => rfl
    | none => cases triple? (percent whole) (percent whole) (percent whole) body <;> rfl

theorem ofRgba?_eq : ofRgba? cs = (readRgba? cs).map color := by
  unfold ofRgba? readRgba?
  cases afterOpening? "rgba(" cs with
  | none => rfl
  | some body =>
    dsimp only [Option.bind_eq_bind, Option.bind_some]
    cases quadruple? whole body <;> rfl

theorem ofHsl?_eq : ofHsl? cs = (readHsl? cs).map color := by
  unfold ofHsl? readHsl?
  cases afterOpening? "hsl(" cs with
  | none => rfl
  | some body =>
    dsimp only [Option.bind_eq_bind, Option.bind_some]
    cases triple? decimal (percent decimal) (percent decimal) body <;> rfl

theorem ofHsv?_eq : ofHsv? cs = (readHsv? cs).map color := by
  unfold ofHsv? readHsv?
  cases (afterOpening? "hsv(" cs).or (afterOpening? "hsb(" cs) with
  | none => rfl
  | some body =>
    dsimp only [Option.bind_eq_bind, Option.bind_some]
    cases triple? decimal (percent decimal) (percent decimal) body <;> rfl

theorem ofWord?_eq : (match names.lookup (String.ofList cs) with
    | some rgb => some (ofBytes rgb)
    | none => ofRgb? cs <|> ofRgba? cs <|> ofHsl? cs <|> ofHsv? cs) = (readWord? cs).map color := by
  unfold readWord?
  cases names.lookup (String.ofList cs) with
  | some rgb => rfl
  | none =>
    rw [ofRgb?_eq, ofRgba?_eq, ofHsl?_eq, ofHsv?_eq]
    cases readRgb? cs <;> cases readRgba? cs <;> cases readHsl? cs <;> rfl

theorem ofLower?_word {cs : List Char} (h : ∀ digits, cs ≠ '#' :: digits) :
    ofLower? cs = (readWord? cs).map color := by
  unfold ofLower?
  split
  · next digits => exact absurd rfl (h digits)
  · exact ofWord?_eq cs

theorem read?_word {cs : List Char} (h : ∀ digits, cs ≠ '#' :: digits) : read? cs = readWord? cs := by
  unfold read?
  split
  · next digits => exact absurd rfl (h digits)
  · rfl

/-- A specifier has the color of its form. -/
theorem ofLower?_eq : ofLower? cs = (read? cs).map color := by
  by_cases hdigits : ∃ digits, cs = '#' :: digits
  · obtain ⟨digits, rfl⟩ := hdigits
    exact ((Option.map_map ..).trans Option.map_id').symm
  · have hword : ∀ digits, cs ≠ '#' :: digits := fun digits h => hdigits ⟨digits, h⟩
    rw [ofLower?_word hword, read?_word hword]

end Specifier

/-- What a component gives, and that it leaves no more than it has met. -/
def Yields {α : Type} (size : Nat) (component : Component α) (P : α → Prop) : Prop :=
  ∀ cs x rest, cs.length ≤ size → component cs = some (x, rest) → P x ∧ rest.length ≤ size

section Components

variable {α β γ : Type} {size : Nat} {P : α → Prop} {Q : β → Prop} {R : γ → Prop}

theorem Yields.percent {component : Component α} (h : Yields size component P) :
    Yields size (percent component) P := by
  intro cs x rest hsize hread
  unfold Color.percent at hread
  split at hread
  · next hfound =>
    obtain ⟨rfl, rfl⟩ := Prod.mk.inj (Option.some.inj hread)
    obtain ⟨hx, hrest⟩ := h cs _ _ hsize hfound
    exact ⟨hx, (Nat.le_succ _).trans hrest⟩
  · simp at hread

theorem length_trimStart_le (cs : List Char) : (Text.trimStart cs).length ≤ cs.length :=
  (List.dropWhile_suffix _).length_le

theorem Yields.closed {component : Component α} (h : Yields size component P) (stop : Char) :
    Yields size (closed component stop) P := by
  intro cs x rest hsize hread
  unfold Color.closed at hread
  split at hread
  · next y behind hfound =>
    obtain ⟨hy, hbehind⟩ := h _ _ _ ((length_trimStart_le cs).trans hsize) hfound
    split at hread
    · next c others hothers =>
      split at hread
      · obtain ⟨rfl, rfl⟩ := Prod.mk.inj (Option.some.inj hread)
        have hshort := length_trimStart_le behind
        rw [hothers, List.length_cons] at hshort
        exact ⟨hy, by omega⟩
      · simp at hread
    · simp at hread
  · simp at hread

theorem triple?_yields {first : Component α} {second : Component β} {third : Component γ}
    (hfirst : Yields size first P) (hsecond : Yields size second Q) (hthird : Yields size third R)
    {cs : List Char} (hsize : cs.length ≤ size) {a : α} {b : β} {c : γ}
    (h : triple? first second third cs = some (a, b, c)) : P a ∧ Q b ∧ R c := by
  unfold triple? at h
  simp only [Option.bind_eq_bind, Option.bind_eq_some_iff] at h
  obtain ⟨⟨a', rest⟩, ha, ⟨b', rest'⟩, hb, ⟨c', rest''⟩, hc, h⟩ := h
  obtain ⟨hPa, hrest⟩ := hfirst.closed ',' _ _ _ hsize ha
  obtain ⟨hQb, hrest'⟩ := hsecond.closed ',' _ _ _ hrest hb
  obtain ⟨hRc, -⟩ := hthird.closed ')' _ _ _ hrest' hc
  split at h
  · obtain ⟨rfl, rfl, rfl⟩ := by simpa using h
    exact ⟨hPa, hQb, hRc⟩
  · simp at h

end Components

section Digits

theorem digitValue_le (c : Char) : (Text.digitValue? c).getD 0 ≤ 9 := by
  unfold Text.digitValue?
  split
  · split
    · next hdigit =>
      simp only [Char.isDigit, Bool.and_eq_true, decide_eq_true_eq] at hdigit
      have hlast : c.toNat ≤ 57 := hdigit.2
      simp only [Option.getD_some]
      omega
    · simp
  · cases hzero : Text.zeroCodes.find? fun code => code ≤ c.toNat && c.toNat ≤ code + 9 with
    | none => simp
    | some code =>
      have hfound := List.find?_some hzero
      simp only [Bool.and_eq_true, decide_eq_true_eq] at hfound
      simp only [Option.map_some, Option.getD_some]
      omega

theorem natOfDigits_lt (cs : List Char) : Text.natOfDigits cs < 10 ^ cs.length := by
  -- The digits read so far are a prefix, so the bound is one for every start.
  have hfold : ∀ start, cs.foldl (fun n c => 10 * n + (Text.digitValue? c).getD 0) start <
      (start + 1) * 10 ^ cs.length := by
    induction cs with
    | nil => simp
    | cons c rest ih =>
      intro start
      have hdigit := digitValue_le c
      calc _ < (10 * start + (Text.digitValue? c).getD 0 + 1) * 10 ^ rest.length := ih _
        _ ≤ (10 * (start + 1)) * 10 ^ rest.length := Nat.mul_le_mul_right _ (by omega)
        _ = (start + 1) * 10 ^ (c :: rest).length := by rw [List.length_cons, pow_succ]; ring
  simpa [Text.natOfDigits] using hfold 0

theorem whole_yields (size : Nat) : Yields size whole (· < 10 ^ size) := by
  intro cs n rest hsize hread
  unfold whole at hread
  dsimp only at hread
  split at hread
  · simp at hread
  · obtain ⟨rfl, rfl⟩ := Prod.mk.inj (Option.some.inj hread)
    have hdigits : (cs.takeWhile Text.isDigit).length ≤ size :=
      (List.takeWhile_prefix _).length_le.trans hsize
    exact ⟨(natOfDigits_lt _).trans_le (Nat.pow_le_pow_right (by decide) hdigits),
      (List.dropWhile_suffix _).length_le.trans hsize⟩

theorem ofDecimal_isNonneg (n : Nat) (e : Int) : IsNonneg (ofDecimal false n e) := by
  intro q hq
  unfold ofDecimal at hq
  simp only [Bool.false_eq_true, if_false] at hq
  split at hq
  · exact (Option.some.inj (value?_zero_lit.symm.trans hq)).le
  · split at hq
    · simp [value?_infinity] at hq
    · cases hnearest : nearest? (n * (10 : Rat) ^ e) with
      | none => simp [hnearest, value?_infinity] at hq
      | some x =>
        rw [hnearest, Option.getD_some, value?_nearest hnearest] at hq
        rw [← Option.some.inj hq]
        exact le_rounded representable_zero (by positivity)

/-- A decimal number is not negative. -/
theorem decimal_yields (size : Nat) : Yields size decimal IsNonneg := by
  intro cs x rest hsize hread
  unfold decimal at hread
  dsimp only at hread
  split at hread
  · simp at hread
  · obtain ⟨rfl, rfl⟩ := Prod.mk.inj (Option.some.inj hread)
    refine ⟨ofDecimal_isNonneg _ _, ?_⟩
    have hbehind := (List.dropWhile_suffix (l := cs) Text.isDigit).length_le.trans hsize
    split
    · next fraction hpoint =>
      rw [hpoint, List.length_cons] at hbehind
      exact (List.dropWhile_suffix _).length_le.trans (by omega)
    · exact hbehind

theorem hexDigit?_lt {c : Char} {d : Nat} (h : hexDigit? c = some d) : d < 16 := by
  unfold hexDigit? at h
  split at h
  · next hdigit =>
    simp only [Char.isDigit, Bool.and_eq_true, decide_eq_true_eq] at hdigit
    have hlast : c.toNat ≤ 57 := hdigit.2
    rw [← Option.some.inj h]
    omega
  · split at h
    · next hletter =>
      have hlast : c.toNat ≤ 102 := hletter.2
      rw [← Option.some.inj h]
      omega
    · simp at h

theorem mapM_hexDigit?_lt {cs : List Char} {digits : List Nat} (h : cs.mapM hexDigit? = some digits) :
    ∀ d ∈ digits, d < 16 := by
  induction cs generalizing digits with
  | nil => simp_all
  | cons c rest ih =>
    simp only [List.mapM_cons, Option.bind_eq_bind, Option.bind_eq_some_iff] at h
    obtain ⟨d, hd, others, hothers, hdigits⟩ := h
    obtain rfl : d :: others = digits := by simpa using hdigits
    exact List.forall_mem_cons.mpr ⟨hexDigit?_lt hd, ih hothers⟩

/-- Hexadecimal digits give bytes. -/
theorem ofHex?_inBytes {cs : List Char} {c : Color} (h : ofHex? cs = some c) : c.InBytes := by
  simp only [ofHex?, Option.bind_eq_bind, Option.bind_eq_some_iff] at h
  obtain ⟨digits, hdigits, hcolor⟩ := h
  have hlt := mapM_hexDigit?_lt hdigits
  split at hcolor
  case h_5 => simp at hcolor
  all_goals
    simp only [List.forall_mem_cons] at hlt
    obtain rfl := Option.some.inj hcolor
    constructor <;> dsimp only [IsByte] <;> omega

theorem names_lt : ∀ entry ∈ names, entry.2 < 16777216 := by decide +kernel

/-- Names give bytes. -/
theorem named_inBytes {name : String} {rgb : Nat} (h : names.lookup name = some rgb) :
    (ofBytes rgb).InBytes := by
  obtain ⟨before, behind, hnames, -⟩ := List.lookup_eq_some_iff.mp h
  have hlt := names_lt (name, rgb) (by rw [hnames]; simp)
  dsimp only at hlt
  constructor <;> dsimp only [ofBytes, IsByte] <;> omega

end Digits

namespace Specifier

/-- What every form that was read satisfies; `size` bounds the digits of a number. -/
def WellFormed (size : Nat) : Specifier → Prop
  | literal color => color.InBytes
  | numbers _ _ _ _ => True
  | percentages red green blue => red < 10 ^ size ∧ green < 10 ^ size ∧ blue < 10 ^ size
  | lightness h s l => IsNonneg h ∧ IsNonneg s ∧ IsNonneg l
  | value h s v => IsNonneg h ∧ IsNonneg s ∧ IsNonneg v

variable {cs : List Char} {size : Nat} {spec : Specifier}

theorem afterOpening?_length {opening : String} {body : List Char}
    (h : afterOpening? opening cs = some body) : body.length ≤ cs.length := by
  unfold afterOpening? at h
  split at h
  · rw [← Option.some.inj h, List.length_drop]
    omega
  · simp at h

theorem readRgb?_wellFormed (hsize : cs.length ≤ size) (h : readRgb? cs = some spec) :
    spec.WellFormed size := by
  simp only [readRgb?, Option.bind_eq_bind, Option.bind_eq_some_iff] at h
  obtain ⟨body, hbody, h⟩ := h
  have hshort := (afterOpening?_length hbody).trans hsize
  split at h
  · rw [← Option.some.inj h]
    trivial
  · obtain ⟨⟨r, g, b⟩, htriple, h⟩ := Option.bind_eq_some_iff.mp h
    rw [← Option.some.inj h]
    have hpercent := (whole_yields size).percent
    exact triple?_yields hpercent hpercent hpercent hshort htriple

theorem readRgba?_wellFormed (h : readRgba? cs = some spec) : spec.WellFormed size := by
  simp only [readRgba?, Option.bind_eq_bind, Option.bind_eq_some_iff] at h
  obtain ⟨body, -, ⟨r, g, b, a⟩, -, h⟩ := h
  rw [← Option.some.inj h]
  trivial

theorem readHsl?_wellFormed (h : readHsl? cs = some spec) : spec.WellFormed size := by
  simp only [readHsl?, Option.bind_eq_bind, Option.bind_eq_some_iff] at h
  obtain ⟨body, -, ⟨hue, s, l⟩, htriple, h⟩ := h
  rw [← Option.some.inj h]
  have hdecimal := decimal_yields body.length
  exact triple?_yields hdecimal hdecimal.percent hdecimal.percent le_rfl htriple

theorem readHsv?_wellFormed (h : readHsv? cs = some spec) : spec.WellFormed size := by
  simp only [readHsv?, Option.bind_eq_bind, Option.bind_eq_some_iff] at h
  obtain ⟨body, -, ⟨hue, s, v⟩, htriple, h⟩ := h
  rw [← Option.some.inj h]
  have hdecimal := decimal_yields body.length
  exact triple?_yields hdecimal hdecimal.percent hdecimal.percent le_rfl htriple

theorem read?_wellFormed (hsize : cs.length ≤ size) (h : read? cs = some spec) :
    spec.WellFormed size := by
  unfold read? at h
  split at h
  · obtain ⟨color, hcolor, rfl⟩ := Option.map_eq_some_iff.mp h
    exact ofHex?_inBytes hcolor
  · unfold readWord? at h
    split at h
    · next rgb hname =>
      rw [← Option.some.inj h]
      exact named_inBytes hname
    · -- The first form that can be read counts.
      cases hrgb : readRgb? cs with
      | some found =>
        rw [hrgb] at h
        exact readRgb?_wellFormed hsize (hrgb.trans h)
      | none =>
        cases hrgba : readRgba? cs with
        | some found =>
          rw [hrgb, hrgba] at h
          exact readRgba?_wellFormed (hrgba.trans h)
        | none =>
          cases hhsl : readHsl? cs with
          | some found =>
            rw [hrgb, hrgba, hhsl] at h
            exact readHsl?_wellFormed (hhsl.trans h)
          | none =>
            rw [hrgb, hrgba, hhsl] at h
            exact readHsv?_wellFormed h

/-- Whether a part of one becomes a channel below or above the bytes. -/
def PartOvershoots (x : Float) : Prop := ∃ q, value? (x * 255 + 0.5) = some q ∧ (q ≤ -1 ∨ 256 ≤ q)

def SomePartOvershoots (parts : Float × Float × Float) : Prop :=
  PartOvershoots parts.1 ∨ PartOvershoots parts.2.1 ∨ PartOvershoots parts.2.2

/-- Whether a channel of a specifier leaves the bytes. -/
def Overshoots : Specifier → Prop
  | literal _ => False
  | numbers red green blue alpha => 255 < red ∨ 255 < green ∨ 255 < blue ∨ 255 < alpha
  | percentages red green blue => 100 < red ∨ 100 < green ∨ 100 < blue
  | lightness h s l => SomePartOvershoots (lightnessParts h s l)
  | value h s v => SomePartOvershoots (valueParts h s v)

/-- Whether an amount that was read is above a hundred. -/
def AboveHundred (x : Float) : Prop := ∃ q, value? x = some q ∧ 100 < q

/-- Whether a specifier names an amount beyond those that its form provides for. -/
def Exceeds : Specifier → Prop
  | literal _ => False
  | numbers red green blue alpha => 255 < red ∨ 255 < green ∨ 255 < blue ∨ 255 < alpha
  | percentages red green blue => 100 < red ∨ 100 < green ∨ 100 < blue
  | lightness _ s l => AboveHundred s ∨ AboveHundred l
  | value _ s v => AboveHundred s ∨ AboveHundred v

theorem truncate_isByte_iff (q : Rat) : IsByte (truncate q) ↔ -1 < q ∧ q < 256 := by
  unfold truncate IsByte
  split
  · next hneg =>
    have hceil : q.ceil ≤ 0 := Rat.ceil_le_iff.mpr (by exact_mod_cast hneg.le)
    rw [show 0 ≤ q.ceil ↔ -1 < q.ceil by omega, Rat.lt_ceil_iff]
    push_cast
    constructor
    · exact fun h => ⟨h.1, by linarith⟩
    · exact fun h => ⟨h.1, by omega⟩
  · next hnonneg =>
    have hfloor : 0 ≤ q.floor := Rat.le_floor_iff.mpr (by exact_mod_cast not_lt.mp hnonneg)
    rw [show q.floor ≤ 255 ↔ q.floor < 256 by omega, Rat.floor_lt_iff]
    push_cast
    constructor
    · exact fun h => ⟨by linarith [not_lt.mp hnonneg], h.2⟩
    · exact fun h => ⟨hfloor, h.2⟩

/-- A channel that is the whole part of a number, none counting as zero. -/
theorem truncate_value?_isByte_iff (x : Float) : IsByte (truncate ((value? x).getD 0)) ↔
    ¬∃ q, value? x = some q ∧ (q ≤ -1 ∨ 256 ≤ q) := by
  cases value? x with
  | none => simpa using (by decide : IsByte (truncate 0))
  | some q =>
    rw [Option.getD_some, truncate_isByte_iff]
    simp only [Option.some.injEq, exists_eq_left', not_or, not_le]

theorem byteOfPart_isByte_iff (x : Float) : IsByte (byteOfPart x) ↔ ¬PartOvershoots x :=
  truncate_value?_isByte_iff _

theorem ofParts_inBytes_iff (parts : Float × Float × Float) :
    (ofParts parts).InBytes ↔ ¬SomePartOvershoots parts := by
  unfold SomePartOvershoots
  rw [not_or, not_or, ← byteOfPart_isByte_iff, ← byteOfPart_isByte_iff, ← byteOfPart_isByte_iff]
  exact ⟨fun h => ⟨h.red, h.green, h.blue⟩, fun h => ⟨h.1, h.2.1, h.2.2, isByte_full⟩⟩

theorem byteOfPercent_isByte {n : Nat} (hn : n ≤ 100) : IsByte (byteOfPercent n) := by
  refine (truncate_value?_isByte_iff _).mpr ?_
  rintro ⟨q, hq, hout⟩
  have hn' : (n : Rat) ≤ 100 := by exact_mod_cast hn
  have hscaled : value? ((nearest? (n * 255 : Nat)).getD 0) = some ((n * 255 : Nat) : Rat) :=
    value?_nearest_getD (nearestValue?_natCast (by omega))
  obtain ⟨s, half, hs, hhalf, rfl⟩ := add_inv hq
  obtain rfl := Option.some.inj (value?_half.symm.trans hhalf)
  obtain ⟨p, hp, rfl⟩ := div_inv (value?_ofNat_lit 100 (by decide)) (by norm_num) hs
  obtain rfl := Option.some.inj (hscaled.symm.trans hp)
  have hshare := rounded_mem (q := ((n * 255 : Nat) : Rat) / (100 : Nat)) representable_zero
    (representable_natCast (n := 255) (by decide)) (by
      push_cast
      exact ⟨by positivity, by linarith⟩)
  have hsum := rounded_mem (q := rounded (((n * 255 : Nat) : Rat) / (100 : Nat)) + 1 / 2)
    representable_zero (representable_half (n := 511) (by decide)) (by
      push_cast at hshare ⊢
      constructor <;> linarith)
  push_cast at hsum hout
  rcases hout with hlow | hhigh <;> linarith

/-- Bounds for what is made from a number of two hundred digits. -/
theorem exists_bound : ∃ bound : Rat, Representable bound ∧ Representable (2 * bound) ∧
    10 ^ 203 ≤ bound ∧ 2 * bound < 2 ^ (1024 : Int) := by
  have htwice : (2 : Rat) ^ (1001 : Int) = 2 * 2 ^ (1000 : Int) := zpow_two_add 1 1000
  refine ⟨2 ^ (1000 : Int), representable_zpow (by decide), ?_, ?_, ?_⟩
  · rw [← htwice]
    exact representable_zpow (by decide)
  · calc (10 : Rat) ^ 203 ≤ (2 ^ 4) ^ 203 := pow_le_pow_left₀ (by norm_num) (by norm_num) 203
      _ = 2 ^ ((4 * 203 : Nat) : Int) := by rw [zpow_natCast, pow_mul]
      _ ≤ 2 ^ (1000 : Int) := zpow_two_le (by decide)
  · rw [← htwice]
    exact zpow_two_lt_iff.mpr (by decide)

theorem byteOfPercent_not_isByte {n : Nat} (hn : 100 < n) (hsize : n < 10 ^ 200) :
    ¬IsByte (byteOfPercent n) := by
  refine fun hbyte => (truncate_value?_isByte_iff _).mp hbyte ?_
  have hlow : (101 : Rat) ≤ n := by exact_mod_cast hn
  have hhigh : (n : Rat) < 10 ^ 200 := by exact_mod_cast hsize
  -- Nothing on the way reaches the largest number of the format.
  obtain ⟨bound, hbound, htwice, hthousand, hlarge⟩ := exists_bound
  have hbelow : bound < 2 ^ (1024 : Int) := (show bound ≤ 2 * bound by linarith).trans_lt hlarge
  obtain ⟨hscaled, hscaled0, hscaled1⟩ := nearestValue?_mem (q := ((n * 255 : Nat) : Rat))
    (representable_natCast (n := 25755) (by decide)) hbound (Nat.cast_nonneg _) hbelow (by
      push_cast
      constructor <;> linarith)
  set scaled := rounded ((n * 255 : Nat) : Rat)
  push_cast at hscaled0
  obtain ⟨hshare, hshare0, hshare1⟩ := nearestValue?_mem (q := scaled / (100 : Nat))
    (representable_natCast (n := 257) (by decide)) hbound (Nat.cast_nonneg _) hbelow (by
      push_cast
      constructor <;> linarith)
  set share := rounded (scaled / (100 : Nat))
  push_cast at hshare0
  obtain ⟨hsum, hsum0, -⟩ := nearestValue?_mem (q := share + 1 / 2)
    (representable_natCast (n := 257) (by decide)) htwice (Nat.cast_nonneg _) hlarge (by
      push_cast
      constructor <;> linarith)
  push_cast at hsum0
  refine ⟨rounded (share + 1 / 2), ?_, .inr (by linarith)⟩
  rw [value?_add, value?_div (value?_ofNat_lit 100 (by decide)) (by norm_num),
    value?_nearest_getD hscaled, Option.bind_some, hshare, Option.bind_some, value?_half,
    Option.bind_some, hsum]

/-- A percentage is a byte up to a hundred. -/
theorem byteOfPercent_isByte_iff {n : Nat} (hsize : n < 10 ^ 200) :
    IsByte (byteOfPercent n) ↔ ¬100 < n :=
  ⟨fun h hn => byteOfPercent_not_isByte hn hsize h, fun h => byteOfPercent_isByte (not_lt.mp h)⟩

theorem isPart_div_hundred {x : Float} (h : IsNonneg x) (hmost : ¬AboveHundred x) : IsPart (x / 100) := by
  refine .of_rounded fun r hr => ?_
  obtain ⟨p, hp, rfl⟩ := div_inv (value?_ofNat_lit 100 (by decide)) (by norm_num) hr
  have hp0 := h p hp
  have hp1 : p ≤ 100 := not_lt.mp fun hmore => hmost ⟨p, hp, hmore⟩
  refine ⟨_, rfl, div_nonneg hp0 (by norm_num), ?_⟩
  push_cast
  linarith

theorem isNonneg_div {x : Float} (h : IsNonneg x) : IsNonneg (x / 360) := by
  intro r hr
  obtain ⟨p, hp, rfl⟩ := div_inv (value?_ofNat_lit 360 (by decide)) (by norm_num) hr
  exact le_rounded representable_zero (div_nonneg (h p hp) (by norm_num))

/-- A part of one is a byte, and so is one that rounding has moved a little. -/
theorem not_partOvershoots {x : Float} (h : IsNearPart x) : ¬PartOvershoots x := by
  rintro ⟨q, hq, hout⟩
  obtain ⟨s, half, hs, hhalf, rfl⟩ := add_inv hq
  obtain rfl := Option.some.inj (value?_half.symm.trans hhalf)
  obtain ⟨p, c, hp, hc, rfl⟩ := mul_inv hs
  obtain rfl := Option.some.inj ((value?_ofNat_lit 255 (by decide)).symm.trans hc)
  obtain ⟨hp0, hp1⟩ := h p hp
  norm_num at hp0 hp1
  push_cast at hout
  have hscaled := rounded_bounds (abs_le.mpr ⟨by linarith, by linarith⟩ : |p * 255| ≤ 256)
  norm_num at hscaled
  have hsum := rounded_bounds
    (abs_le.mpr ⟨by linarith, by linarith⟩ : |rounded (p * 255) + 1 / 2| ≤ 256)
  norm_num at hsum
  rcases hout with hlow | hhigh <;> linarith

theorem not_somePartOvershoots {parts : Float × Float × Float} (h : AllThree IsNearPart parts) :
    ¬SomePartOvershoots parts := by
  rintro (hred | hgreen | hblue)
  · exact not_partOvershoots h.1 hred
  · exact not_partOvershoots h.2.1 hgreen
  · exact not_partOvershoots h.2.2 hblue

/-- What a specifier gives is a byte color unless a channel of it leaves the bytes. -/
theorem color_inBytes_iff (h : spec.WellFormed 200) : spec.color.InBytes ↔ ¬spec.Overshoots := by
  cases spec with
  | literal color => exact ⟨fun _ => id, fun _ => h⟩
  | numbers r g b a =>
    have hbyte (n : Nat) : IsByte n ↔ ¬255 < n := by
      unfold IsByte
      omega
    simp only [Overshoots, not_or, ← hbyte]
    exact ⟨fun h => ⟨h.red, h.green, h.blue, h.alpha⟩, fun h => ⟨h.1, h.2.1, h.2.2.1, h.2.2.2⟩⟩
  | percentages r g b =>
    obtain ⟨hr, hg, hb⟩ := h
    simp only [Overshoots, not_or, ← byteOfPercent_isByte_iff hr, ← byteOfPercent_isByte_iff hg,
      ← byteOfPercent_isByte_iff hb]
    exact ⟨fun h => ⟨h.red, h.green, h.blue⟩, fun h => ⟨h.1, h.2.1, h.2.2, isByte_full⟩⟩
  | lightness hue s l => exact ofParts_inBytes_iff _
  | value hue s v => exact ofParts_inBytes_iff _

/-- A channel leaves the bytes only if an amount is beyond what the form provides for. -/
theorem Overshoots.exceeds (hover : spec.Overshoots) (h : spec.WellFormed size) : spec.Exceeds := by
  cases spec with
  | literal color => exact hover
  | numbers r g b a => exact hover
  | percentages r g b => exact hover
  | lightness hue s l =>
    by_contra hwithin
    obtain ⟨hs, hl⟩ := not_or.mp hwithin
    exact not_somePartOvershoots
      (ofLightness_parts _ (isPart_div_hundred h.2.2 hl) (isPart_div_hundred h.2.1 hs)) hover
  | value hue s v =>
    by_contra hwithin
    obtain ⟨hs, hv⟩ := not_or.mp hwithin
    have hparts := ofValue_parts (isNonneg_div h.1) (isPart_div_hundred h.2.1 hs)
      (isPart_div_hundred h.2.2 hv)
    exact not_somePartOvershoots ⟨(isEnd_of_isPart hparts.1).isNearPart,
      (isEnd_of_isPart hparts.2.1).isNearPart, (isEnd_of_isPart hparts.2.2).isNearPart⟩ hover

end Specifier

end MapLayers.Color
