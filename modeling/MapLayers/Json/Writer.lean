import MapLayers.Json.Basic
import MapLayers.Numeric.Decimal
import MapLayers.Text.Quoted

/-!
# Written documents

With a positive or zero indent every item stands on its own line; empty lists and objects stay
closed. Texts keep all characters except quotes, backslashes and control characters.
-/

namespace MapLayers.Json

open Decimal Text

def escapedChar (c : Char) : List Char :=
  if c = '"' then ['\\', '"']
  else if c = '\\' then ['\\', '\\']
  else if c = '\n' then ['\\', 'n']
  else if c = '\r' then ['\\', 'r']
  else if c = '\t' then ['\\', 't']
  else if c.toNat = 8 then ['\\', 'b']
  else if c.toNat = 12 then ['\\', 'f']
  else if c.toNat < 32 then '\\' :: 'u' :: hexText 4 c.toNat
  else [c]

def textChars (s : String) : List Char :=
  '"' :: s.toList.flatMap escapedChar ++ ['"']

/-- Infinities and NaN have names of their own here. -/
def numberText (x : Float) : String :=
  if Binary64.isNaN x then "NaN"
  else if !Binary64.isFinite x then (if Binary64.signBit x then "-Infinity" else "Infinity")
  else floatText x

/-- Fields in the order in which they are written: by code points of the keys, or as they stand. -/
def arranged (sorted : Bool) (fields : Fields) : Fields :=
  if sorted then fields.mergeSort fun a b => decide (a.1 ≤ b.1) else fields

mutual

/-- The same document with the fields of every object sorted by key. -/
def sortFields : Json → Json
  | list items => list (sortItems items)
  | object fields => object (arranged true (sortValues fields))
  | value => value

def sortItems : List Json → List Json
  | [] => []
  | item :: rest => sortFields item :: sortItems rest

def sortValues : List (String × Json) → List (String × Json)
  | [] => []
  | (key, value) :: rest => (key, sortFields value) :: sortValues rest

end

mutual

def wholesFit : Json → Bool
  | int n => (digitText n.natAbs).length ≤ maxDigits
  | list items => itemsFit items
  | object fields => fieldsFit fields
  | _ => true

def itemsFit : List Json → Bool
  | [] => true
  | item :: rest => item.wholesFit && itemsFit rest

def fieldsFit : List (String × Json) → Bool
  | [] => true
  | (_, value) :: rest => value.wholesFit && fieldsFit rest

end

/-- A line break followed by the indent of the given depth. -/
def lineBreak (indent depth : Nat) : List Char :=
  '\n' :: List.replicate (indent * depth) ' '

mutual

def writeChars (indent depth : Nat) : Json → List Char
  | null => "null".toList
  | bool b => (if b then "true" else "false").toList
  | int n => (integerText n).toList
  | float x => (numberText x).toList
  | text s => textChars s
  | list [] => "[]".toList
  | list (item :: rest) =>
    '[' :: lineBreak indent (depth + 1) ++ writeChars indent (depth + 1) item
      ++ writeItems indent (depth + 1) rest ++ lineBreak indent depth ++ [']']
  | object [] => ['\x7b', '\x7d']
  | object ((key, value) :: rest) =>
    '\x7b' :: lineBreak indent (depth + 1) ++ textChars key ++ ": ".toList
      ++ writeChars indent (depth + 1) value ++ writeFields indent (depth + 1) rest
      ++ lineBreak indent depth ++ ['\x7d']

def writeItems (indent depth : Nat) : List Json → List Char
  | [] => []
  | item :: rest =>
    ',' :: lineBreak indent depth ++ writeChars indent depth item ++ writeItems indent depth rest

def writeFields (indent depth : Nat) : List (String × Json) → List Char
  | [] => []
  | (key, value) :: rest =>
    ',' :: lineBreak indent depth ++ textChars key ++ ": ".toList
      ++ writeChars indent depth value ++ writeFields indent depth rest

end

/-- The text of a document file, with a final line break. -/
def write (indent : Nat) (sorted : Bool) (document : Json) : String :=
  let arrangedDocument := if sorted then document.sortFields else document
  String.ofList (writeChars indent 0 arrangedDocument ++ ['\n'])

end MapLayers.Json
