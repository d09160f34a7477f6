import MapLayers.Json.Basic
import MapLayers.Numeric.Decimal

/-!
# Reading documents

The usual JSON grammar, with `NaN` and infinities accepted as numbers. A number with a point or an
exponent is floating, any other is whole. Of two fields with one key the later value stays, in the
place of the first. A byte order mark, control characters inside a text and anything after the
document are refused, and so are lists and objects that are nested too deep. Texts are sequences of Unicode
scalar values, so that there is none for half of a surrogate pair, though the grammar has an escape for it.
-/

namespace MapLayers.Json

inductive ReadFault where
  | syntaxFault
  | tooManyDigits
  | tooDeep
  | unpairedSurrogate
  deriving DecidableEq, Repr

def isSpace (c : Char) : Bool := c = ' ' || c = '\t' || c = '\n' || c = '\r'

def skipSpace (cs : List Char) : List Char := cs.dropWhile isSpace

def hexDigit? (c : Char) : Option Nat :=
  if c.isDigit then some (c.toNat - 48)
  else if 'a' ≤ c ∧ c ≤ 'f' then some (c.toNat - 87)
  else if 'A' ≤ c ∧ c ≤ 'F' then some (c.toNat - 55)
  else none

def hexCode? (a b c d : Char) : Option Nat := do
  let w ← hexDigit? a
  let x ← hexDigit? b
  let y ← hexDigit? c
  let z ← hexDigit? d
  return w * 4096 + x * 256 + y * 16 + z

def escape? : Char → Option Char
  | '"' => some '"'
  | '\\' => some '\\'
  | '/' => some '/'
  | 'b' => some '\x08'
  | 'f' => some '\x0c'
  | 'n' => some '\n'
  | 'r' => some '\r'
  | 't' => some '\t'
  | _ => none

def isHighSurrogate (code : Nat) : Bool := 0xd800 ≤ code && code < 0xdc00

def isLowSurrogate (code : Nat) : Bool := 0xdc00 ≤ code && code < 0xe000

def isSurrogate (code : Nat) : Bool := isHighSurrogate code || isLowSurrogate code

/-- A code unit, joined with the one held back before it if the two form a pair. -/
def joinUnits (high low : Nat) : Char :=
  Char.ofNat (0x10000 + (high - 0xd800) * 0x400 + (low - 0xdc00))

/-- The rest of a text after its opening quote; `acc` holds the characters read, last one first. -/
def readText (acc : List Char) : List Char → Except ReadFault (String × List Char)
  | [] => .error .syntaxFault
  | '"' :: rest => .ok (String.ofList acc.reverse, rest)
  | '\\' :: 'u' :: a :: b :: c :: d :: '\\' :: 'u' :: e :: f :: g :: h :: rest =>
    match hexCode? a b c d, hexCode? e f g h with
    | some high, some low =>
      if isHighSurrogate high && isLowSurrogate low then
        readText (joinUnits high low :: acc) rest
      else if isSurrogate high then .error .unpairedSurrogate
      else readText (Char.ofNat high :: acc) ('\\' :: 'u' :: e :: f :: g :: h :: rest)
    | some _, none => .error .syntaxFault
    | none, _ => .error .syntaxFault
  | '\\' :: 'u' :: a :: b :: c :: d :: rest =>
    match hexCode? a b c d with
    | some code =>
      if isSurrogate code then .error .unpairedSurrogate else readText (Char.ofNat code :: acc) rest
    | none => .error .syntaxFault
  | '\\' :: c :: rest =>
    match escape? c with
    | some e => readText (e :: acc) rest
    | none => .error .syntaxFault
  | c :: rest => if c.toNat < 32 then .error .syntaxFault else readText (c :: acc) rest

/-- The longest whole-number part: a zero, or digits that do not start with one. -/
def splitWhole : List Char → Option (List Char × List Char)
  | '0' :: rest => some (['0'], rest)
  | c :: rest =>
    if c.isDigit then some (c :: rest.takeWhile Char.isDigit, rest.dropWhile Char.isDigit) else none
  | [] => none

def splitFraction : List Char → List Char × List Char
  | '.' :: c :: rest =>
    if c.isDigit then (c :: rest.takeWhile Char.isDigit, rest.dropWhile Char.isDigit)
    else ([], '.' :: c :: rest)
  | rest => ([], rest)

/-- An exponent with its digits, or none if no well-formed one follows. -/
def splitExponent? : List Char → Option (Int × List Char)
  | e :: rest =>
    if e = 'e' ∨ e = 'E' then
      let (negative, digits) :=
        match rest with
        | '-' :: r => (true, r)
        | '+' :: r => (false, r)
        | r => (false, r)
      let run := digits.takeWhile Char.isDigit
      if run.isEmpty then none
      else
        let n := (Decimal.natOfDigits run : Int)
        some (if negative then -n else n, digits.dropWhile Char.isDigit)
    else none
  | [] => none

def readNumber (negative : Bool) (cs : List Char) : Except ReadFault (Json × List Char) :=
  match splitWhole cs with
  | none => .error .syntaxFault
  | some (whole, afterWhole) =>
    let (fraction, afterFraction) := splitFraction afterWhole
    let exponent? := splitExponent? afterFraction
    if fraction.isEmpty && exponent?.isNone then
      if maxDigits < whole.length then .error .tooManyDigits
      else
        let n := (Decimal.natOfDigits whole : Int)
        .ok (int (if negative then -n else n), afterFraction)
    else
      let (exponent, rest) := exponent?.getD (0, afterFraction)
      let significand := Decimal.natOfDigits (whole ++ fraction)
      .ok (float (Binary64.ofDecimal negative significand (exponent - fraction.length)), rest)

mutual

/-- A value, with the depth to which lists and objects may still be nested. -/
def readValue : Nat → Nat → List Char → Except ReadFault (Json × List Char)
  | 0, _, _ => .error .syntaxFault
  | fuel + 1, depth, cs =>
    match cs with
    | '"' :: rest => do
      let (s, rest) ← readText [] rest
      return (text s, rest)
    | '[' :: rest =>
      match depth with
      | 0 => .error .tooDeep
      | depth + 1 =>
        match skipSpace rest with
        | ']' :: rest => .ok (list [], rest)
        | rest => readItems fuel depth [] rest
    | '\x7b' :: rest =>
      match depth with
      | 0 => .error .tooDeep
      | depth + 1 =>
        match skipSpace rest with
        | '\x7d' :: rest => .ok (object [], rest)
        | rest => readFields fuel depth [] rest
    | 'n' :: 'u' :: 'l' :: 'l' :: rest => .ok (null, rest)
    | 't' :: 'r' :: 'u' :: 'e' :: rest => .ok (bool true, rest)
    | 'f' :: 'a' :: 'l' :: 's' :: 'e' :: rest => .ok (bool false, rest)
    | 'N' :: 'a' :: 'N' :: rest => .ok (float Binary64.notANumber, rest)
    | 'I' :: 'n' :: 'f' :: 'i' :: 'n' :: 'i' :: 't' :: 'y' :: rest =>
      .ok (float Binary64.infinity, rest)
    | '-' :: 'I' :: 'n' :: 'f' :: 'i' :: 'n' :: 'i' :: 't' :: 'y' :: rest =>
      .ok (float (-Binary64.infinity), rest)
    | '-' :: rest => readNumber true rest
    | rest => readNumber false rest

/-- Items of a list up to its end; `acc` holds those read, last one first. -/
def readItems : Nat → Nat → List Json → List Char → Except ReadFault (Json × List Char)
  | 0, _, _, _ => .error .syntaxFault
  | fuel + 1, depth, acc, cs => do
    let (item, rest) ← readValue fuel depth (skipSpace cs)
    match skipSpace rest with
    | ',' :: rest => readItems fuel depth (item :: acc) rest
    | ']' :: rest => return (list (item :: acc).reverse, rest)
    | _ => .error .syntaxFault

def readFields : Nat → Nat → List (String × Json) → List Char → Except ReadFault (Json × List Char)
  | 0, _, _, _ => .error .syntaxFault
  | fuel + 1, depth, acc, cs =>
    match skipSpace cs with
    | '"' :: rest => do
      let (key, rest) ← readText [] rest
      match skipSpace rest with
      | ':' :: rest =>
        let (value, rest) ← readValue fuel depth (skipSpace rest)
        match skipSpace rest with
        | ',' :: rest => readFields fuel depth ((key, value) :: acc) rest
        | '\x7d' :: rest => return (object (Entries.ofList ((key, value) :: acc).reverse), rest)
        | _ => .error .syntaxFault
      | _ => .error .syntaxFault
    | _ => .error .syntaxFault

end

/-- The document that a text holds, with lists and objects nested to the given depth at most. Every
nested value starts at a later character, so the length of the text bounds the steps of the reading. -/
def readWithin (depth : Nat) (s : String) : Except ReadFault Json := do
  let cs := s.toList
  let (document, rest) ← readValue (2 * cs.length + 2) depth (skipSpace cs)
  if (skipSpace rest).isEmpty then return document else throw .syntaxFault

def read (s : String) : Except ReadFault Json := readWithin s.length s

end MapLayers.Json
