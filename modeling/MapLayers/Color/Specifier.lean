import MapLayers.Color.Basic
import MapLayers.Color.Names
import MapLayers.Text.LetterCase

/-!
# Color specifiers

A color can be written as a name, in hexadecimal digits, or as `rgb(…)`, `rgba(…)`, `hsl(…)`,
`hsv(…)` or `hsb(…)`. Channels written as plain numbers are taken as they are, whatever their size.
-/

namespace MapLayers.Color

open Text

/-- The fractional part, never negative. -/
def fractional (x : Float) : Float :=
  match Binary64.value? x with
  | none => Binary64.notANumber
  | some q =>
    let rest := q - truncate q
    let r := (Binary64.nearest? rest).getD 0
    if rest < 0 then r + 1 else if rest = 0 then 0 else r

/-- A channel of a color given by hue, lightness and saturation. -/
def hueChannel (low high hue : Float) : Float :=
  let h := fractional hue
  if h < 1 / 6 then low + (high - low) * h * 6
  else if h < 0.5 then high
  else if h < 2 / 3 then low + (high - low) * (2 / 3 - h) * 6
  else low

def ofLightness (hue lightness saturation : Float) : Float × Float × Float :=
  if saturation == 0 then (lightness, lightness, lightness)
  else
    let high :=
      if lightness ≤ 0.5 then lightness * (1 + saturation)
      else lightness + saturation - lightness * saturation
    let low := 2 * lightness - high
    (hueChannel low high (hue + 1 / 3), hueChannel low high hue, hueChannel low high (hue - 1 / 3))

def ofValue (hue saturation value : Float) : Float × Float × Float :=
  if saturation == 0 then (value, value, value)
  else
    let sixths := hue * 6
    let sector := truncate ((Binary64.value? sixths).getD 0)
    let f := sixths - ((Binary64.nearest? sector).getD 0)
    let p := value * (1 - saturation)
    let q := value * (1 - saturation * f)
    let t := value * (1 - saturation * (1 - f))
    match (sector % 6).toNat with
    | 0 => (value, t, p)
    | 1 => (q, value, p)
    | 2 => (p, value, t)
    | 3 => (p, q, value)
    | 4 => (t, p, value)
    | _ => (value, p, q)

def byteOfPart (x : Float) : Int := truncate ((Binary64.value? (x * 255 + 0.5)).getD 0)

def ofParts (parts : Float × Float × Float) : Color :=
  ⟨byteOfPart parts.1, byteOfPart parts.2.1, byteOfPart parts.2.2, 255⟩

abbrev Component (α : Type) := List Char → Option (α × List Char)

def whole : Component Nat := fun cs =>
  let digits := cs.takeWhile isDigit
  if digits.isEmpty then none else some (Text.natOfDigits digits, cs.dropWhile isDigit)

/-- Digits with an optional point and further digits. -/
def decimal : Component Float := fun cs =>
  let digits := cs.takeWhile isDigit
  if digits.isEmpty then none
  else
    let (fraction, rest) := match cs.dropWhile isDigit with
      | '.' :: r => (r.takeWhile isDigit, r.dropWhile isDigit)
      | r => ([], r)
    some (Binary64.ofDecimal false (Text.natOfDigits (digits ++ fraction)) (-fraction.length), rest)

def percent {α : Type} (component : Component α) : Component α := fun cs =>
  match component cs with
  | some (x, '%' :: rest) => some (x, rest)
  | _ => none

/-- The component between blanks, and the given character after them. -/
def closed {α : Type} (component : Component α) (stop : Char) : Component α := fun cs =>
  match component (trimStart cs) with
  | some (x, rest) =>
    match trimStart rest with
    | c :: rest => if c = stop then some (x, rest) else none
    | [] => none
  | none => none

/-- Three components with commas between them, up to a closing parenthesis at the very end. -/
def triple? {α β γ : Type} (first : Component α) (second : Component β) (third : Component γ)
    (cs : List Char) : Option (α × β × γ) := do
  let (a, rest) ← closed first ',' cs
  let (b, rest) ← closed second ',' rest
  let (c, rest) ← closed third ')' rest
  if rest.isEmpty then return (a, b, c) else none

def quadruple? (component : Component Nat) (cs : List Char) : Option (Nat × Nat × Nat × Nat) := do
  let (a, rest) ← closed component ',' cs
  let (b, c, d) ← triple? component component component rest
  return (a, b, c, d)

def afterOpening? (opening : String) (cs : List Char) : Option (List Char) :=
  if opening.toList.isPrefixOf cs then some (cs.drop opening.length) else none

def hexDigit? (c : Char) : Option Nat :=
  if c.isDigit then some (c.toNat - 48)
  else if 'a' ≤ c ∧ c ≤ 'f' then some (c.toNat - 87)
  else none

/-- Three, four, six or eight digits; in the short forms every digit stands for itself twice. -/
def ofHex? (cs : List Char) : Option Color := do
  let digits ← cs.mapM hexDigit?
  match digits with
  | [r, g, b] => return ⟨17 * r, 17 * g, 17 * b, 255⟩
  | [r, g, b, a] => return ⟨17 * r, 17 * g, 17 * b, 17 * a⟩
  | [r, r', g, g', b, b'] => return ⟨16 * r + r', 16 * g + g', 16 * b + b', 255⟩
  | [r, r', g, g', b, b', a, a'] =>
    return ⟨16 * r + r', 16 * g + g', 16 * b + b', 16 * a + a'⟩
  | _ => none

def byteOfPercent (n : Nat) : Int :=
  let x := (Binary64.nearest? (n * 255 : Nat)).getD 0
  truncate ((Binary64.value? (x / 100 + 0.5)).getD 0)

def ofRgb? (cs : List Char) : Option Color := do
  let body ← afterOpening? "rgb(" cs
  match triple? whole whole whole body with
  | some (r, g, b) => return ⟨r, g, b, 255⟩
  | none =>
    let (r, g, b) ← triple? (percent whole) (percent whole) (percent whole) body
    return ⟨byteOfPercent r, byteOfPercent g, byteOfPercent b, 255⟩

def ofRgba? (cs : List Char) : Option Color := do
  let body ← afterOpening? "rgba(" cs
  let (r, g, b, a) ← quadruple? whole body
  return ⟨r, g, b, a⟩

def ofHsl? (cs : List Char) : Option Color := do
  let body ← afterOpening? "hsl(" cs
  let (h, s, l) ← triple? decimal (percent decimal) (percent decimal) body
  return ofParts (ofLightness (h / 360) (l / 100) (s / 100))

def ofHsv? (cs : List Char) : Option Color := do
  let body ← (afterOpening? "hsv(" cs).or (afterOpening? "hsb(" cs)
  let (h, s, v) ← triple? decimal (percent decimal) (percent decimal) body
  return ofParts (ofValue (h / 360) (s / 100) (v / 100))

def ofLower? (cs : List Char) : Option Color :=
  match cs with
  | '#' :: digits => ofHex? digits
  | _ =>
    match names.lookup (String.ofList cs) with
    | some rgb => some (ofBytes rgb)
    | none => ofRgb? cs <|> ofRgba? cs <|> ofHsl? cs <|> ofHsv? cs

def maxSpecifier : Nat := 100

def ofSpecifier (s : String) : Result Color :=
  let trimmed := trim s
  if maxSpecifier < trimmed.length then .error .colorTooLong
  else
    let lowered := lower trimmed
    match ofLower? lowered.toList with
    | some color => .ok color
    | none => .error (.unknownColor lowered)

/-- The color that a value denotes: a specifier, or a list of three or four channels. -/
def ofJson : Json → Result Color
  | .text s => ofSpecifier s
  | .list [r, g, b] => do
    let r ← channel r
    let g ← channel g
    let b ← channel b
    return ⟨r, g, b, 255⟩
  | .list [r, g, b, a] => do
    let r ← channel r
    let g ← channel g
    let b ← channel b
    let a ← channel a
    return ⟨r, g, b, a⟩
  | value => .error (.unsupportedColor value)

/-- One channel on the way between two, in proportion `t`. -/
def blendChannel (start stop : Int) (t : Number) : Result Int := do
  let way ← (Number.int (stop - start)).mul t
  let value ← (Number.int start).add way
  channel (.ofNumber value)

/-- The color in proportion `t` between two; every channel is brought into range on its own. -/
def blend (start stop : Json) (t : Json) : Result Color := do
  let a ← ofJson start
  let b ← ofJson stop
  let t ← t.operand
  let red ← blendChannel a.red b.red t
  let green ← blendChannel a.green b.green t
  let blue ← blendChannel a.blue b.blue t
  let alpha ← blendChannel a.alpha b.alpha t
  return ⟨red, green, blue, alpha⟩

end MapLayers.Color
