import MapLayers.Fault
import MapLayers.Yaml.Scalar

/-!
# Lexemes of settings files

Gaps are blanks, line breaks and comments. Scalars stand in quotes or are plain; a plain one ends where
a comment or a colon with a blank behind it begins, and inside brackets also at a comma or a bracket.
-/

namespace MapLayers.Yaml

/-- The rest of a text, with the number of characters before it on its line. -/
structure Cursor where
  column : Nat
  rest : List Char

def tokenFault : Fault := .operation .yamlToken

def structureFault : Fault := .operation .yamlStructure

def documentsFault : Fault := .operation .yamlDocuments

def plainBreaks : List Char → List Char
  | '\r' :: '\n' :: rest => '\n' :: plainBreaks rest
  | '\r' :: rest => '\n' :: plainBreaks rest
  | c :: rest => c :: plainBreaks rest
  | [] => []

def isBreak (c : Char) : Bool := c = '\n'

def isGap (c : Char) : Bool := c = ' ' || isBreak c

mutual

/-- Skips a gap; a comment starts only where a gap has begun. -/
def skipGap (column : Nat) (begun : Bool) : List Char → Cursor
  | [] => ⟨column, []⟩
  | c :: rest =>
    if c = ' ' then skipGap (column + 1) true rest
    else if isBreak c then skipGap 0 true rest
    else if c = '#' && begun then skipComment rest
    else ⟨column, c :: rest⟩

def skipComment : List Char → Cursor
  | [] => ⟨0, []⟩
  | c :: rest => if isBreak c then skipGap 0 true rest else skipComment rest

end

def skipSpaces (cs : List Char) : List Char := cs.dropWhile (· = ' ')

def endsLine (cs : List Char) : Bool :=
  match skipSpaces cs with
  | [] => true
  | c :: _ => isBreak c || (c = '#' && cs.head? = some ' ')

def endsToken : List Char → Bool
  | [] => true
  | c :: _ => isGap c || c = '\t'

/-- The line breaks and blanks of a gap without comments, with the number of breaks. -/
def lineGap (breaks column : Nat) : List Char → Nat × Cursor
  | [] => (breaks, ⟨column, []⟩)
  | c :: rest =>
    if c = ' ' then lineGap breaks (column + 1) rest
    else if isBreak c then lineGap (breaks + 1) 0 rest
    else (breaks, ⟨column, c :: rest⟩)

def isBracket (c : Char) : Bool := c = '[' || c = ']' || c = '\x7b' || c = '\x7d'

def endsFlow (c : Char) : Bool := c = ',' || isBracket c

def isColon (flow : Bool) : List Char → Bool
  | ':' :: rest => endsToken rest || (flow && (rest.head?.any endsFlow))
  | _ => false

/-- The characters of a plain scalar on one line; `acc` holds those read, last one first. -/
def plainRun (flow : Bool) (acc : List Char) : List Char → List Char × List Char
  | [] => (acc, [])
  | c :: rest =>
    if isBreak c || c = '\t' || (c = '#' && acc.head? = some ' ') || isColon flow (c :: rest)
        || (flow && (endsFlow c || c = '?')) then (acc, c :: rest)
    else plainRun flow (c :: acc) rest

def plainText (flow : Bool) (cs : List Char) : List Char × List Char :=
  let (run, rest) := plainRun flow [] cs
  ((run.dropWhile (· = ' ')).reverse, run.takeWhile (· = ' ') ++ rest)

/-- A line break inside a scalar counts as one blank, several as one break fewer. -/
def folded (breaks : Nat) : List Char :=
  if breaks = 1 then [' '] else List.replicate (breaks - 1) '\n'

/-- A plain scalar on all its lines: it goes on where a line is indented far enough, and ends at a
comment. Every line takes a character, so the length of the text bounds their number. -/
def plainLines (flow : Bool) (least : Nat) : Nat → List Char → List Char → List Char × List Char
  | 0, acc, cs => (acc, cs)
  | lines + 1, acc, cs =>
    let (text, rest) := plainText flow cs
    let (breaks, next) := lineGap 0 0 rest
    let goesOn := breaks ≠ 0 && (flow || least ≤ next.column)
      && !(plainText flow next.rest).1.isEmpty && next.rest.head? ≠ some '#'
    if goesOn then plainLines flow least lines (acc ++ text ++ folded breaks) next.rest
    else (acc ++ text, rest)

def plainScalar (flow : Bool) (least : Nat) (cs : List Char) : List Char × List Char :=
  plainLines flow least cs.length [] cs

def startsPlain : List Char → Bool
  | [] => false
  | c :: rest =>
    if c = '-' || c = '?' || c = ':' then !endsToken rest
    else !(",[]#&*!|>%@".toList.contains c || c = '\x7b' || c = '\x7d' || c = '\'' || c = '"'
      || c.toNat = 96 || c = '\t' || isGap c)

def hexValue? (cs : List Char) : Option Char :=
  if cs.all isHex then some (Char.ofNat (numeral 16 cs)) else none

def escape? : Char → Option Char
  | '0' => some '\x00'
  | 'a' => some '\x07'
  | 'b' => some '\x08'
  | 't' => some '\t'
  | 'n' => some '\n'
  | 'v' => some '\x0b'
  | 'f' => some '\x0c'
  | 'r' => some '\r'
  | 'e' => some '\x1b'
  | ' ' => some ' '
  | '\t' => some '\t'
  | '_' => some '\u00a0'
  | 'N' => some '\u0085'
  | 'L' => some '\u2028'
  | 'P' => some '\u2029'
  | '"' => some '"'
  | '\\' => some '\\'
  | '/' => some '/'
  | _ => none

/-- Adds a line break inside quotes behind `breaks` others; the blanks around it do not count. -/
def foldBreak (breaks : Nat) (acc : List Char) : List Char :=
  match breaks with
  | 0 => ' ' :: acc.dropWhile (· = ' ')
  | 1 => '\n' :: acc.drop 1
  | _ => '\n' :: acc

/-- The rest of a text in double quotes; `breaks` counts the line breaks just before. -/
def doubleQuoted (acc : List Char) (breaks : Nat) : List Char → Result (List Char × List Char)
  | [] => .error tokenFault
  | '"' :: rest => .ok (acc.reverse, rest)
  | '\\' :: 'x' :: a :: b :: rest =>
    match hexValue? [a, b] with
    | some c => doubleQuoted (c :: acc) 0 rest
    | none => .error tokenFault
  | '\\' :: 'u' :: a :: b :: c :: d :: rest =>
    match hexValue? [a, b, c, d] with
    | some e => doubleQuoted (e :: acc) 0 rest
    | none => .error tokenFault
  | '\\' :: c :: rest =>
    match escape? c with
    | some e => doubleQuoted (e :: acc) 0 rest
    | none => .error tokenFault
  | c :: rest =>
    if isBreak c then doubleQuoted (foldBreak breaks acc) (breaks + 1) rest
    else if c = ' ' && breaks ≠ 0 then doubleQuoted acc breaks rest
    else doubleQuoted (c :: acc) 0 rest

/-- The rest of a text in single quotes, where two stand for one. -/
def singleQuoted (acc : List Char) (breaks : Nat) : List Char → Result (List Char × List Char)
  | [] => .error tokenFault
  | '\'' :: '\'' :: rest => singleQuoted ('\'' :: acc) 0 rest
  | '\'' :: rest => .ok (acc.reverse, rest)
  | c :: rest =>
    if isBreak c then singleQuoted (foldBreak breaks acc) (breaks + 1) rest
    else if c = ' ' && breaks ≠ 0 then singleQuoted acc breaks rest
    else singleQuoted (c :: acc) 0 rest

end MapLayers.Yaml
