import MapLayers.Json.Basic
import MapLayers.Numeric.Decimal
import MapLayers.Text.Quoted

/-!
# Values in messages

`literal` shows any value inside a message; `display` shows a text without quotes and everything
else as its literal.
-/

namespace MapLayers.Json

open Decimal Text

mutual

def literal : Json → String
  | null => "None"
  | bool b => if b then "True" else "False"
  | int n => integerText n
  | float x => floatText x
  | text s => quoted s
  | list items => "[" ++ ", ".intercalate (literals items) ++ "]"
  | object fields => "\x7b" ++ ", ".intercalate (fieldLiterals fields) ++ "\x7d"

def literals : List Json → List String
  | [] => []
  | item :: rest => literal item :: literals rest

def fieldLiterals : List (String × Json) → List String
  | [] => []
  | (key, value) :: rest => (quoted key ++ ": " ++ literal value) :: fieldLiterals rest

end

def display : Json → String
  | text s => s
  | value => literal value

end MapLayers.Json
