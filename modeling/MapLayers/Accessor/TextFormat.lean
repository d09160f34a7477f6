import MapLayers.Calendar.IsoText
import MapLayers.Json.Literal

/-!
# Labels of column values

Dates are shown in UTC, whole numbers without a fraction, other numbers with five places, and all
else as it is.
-/

namespace MapLayers

inductive TextFormat where
  | date
  | integer
  | float
  | plain
  deriving DecidableEq, Repr

namespace TextFormat

def ofName : String → TextFormat
  | "date" | "timestamp" => date
  | "integer" => integer
  | "float" => float
  | _ => plain

/-- The format for a column type; types that name none show values as they are. -/
def ofJson (type : Json) : Result TextFormat :=
  match type with
  | .text s => .ok (ofName s)
  | .list (_ :: _) | .object (_ :: _) => .error .typeMismatch
  | _ => .ok plain

/-- Every `Z` stands for an offset of zero. -/
def spellOutZulu (s : String) : String :=
  String.ofList (s.toList.flatMap fun c => if c = 'Z' then "+00:00".toList else [c])

def momentOf (value : Json) : Result Int :=
  match value.number? with
  | some n => Calendar.ofMilliseconds n
  | none => Calendar.ofText (spellOutZulu value.display)

def nearestWhole (value : Json) : Result Int := do
  let x ← value.toFloat
  (Number.float x).toInt roundHalfEven

/-- The label of a value that is not null. -/
def label (format : TextFormat) (value : Json) : Result String :=
  match format with
  | date => (momentOf value).map Calendar.label
  | integer => (nearestWhole value).map Decimal.integerText
  | float => (value.toFloat).map (Decimal.fixed 5)
  | plain => .ok value.display

end TextFormat

end MapLayers
