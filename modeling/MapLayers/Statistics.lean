import MapLayers.Tally

/-!
# Statistics of a column

Aggregates over the numbers of a list; values that are no numbers, and NaN, do not take part. Means
and variances are computed exactly and rounded once.
-/

namespace MapLayers.Statistics

def numbers : List Json → Result (List Number)
  | [] => .ok []
  | value :: rest => do
    match ← value.properNumber? with
    | none => numbers rest
    | some n =>
      let others ← numbers rest
      return n :: others

def largest : List Number → Option Number
  | [] => none
  | n :: rest => some (rest.foldl (fun best m => if best.less m then m else best) n)

def smallest : List Number → Option Number
  | [] => none
  | n :: rest => some (rest.foldl (fun best m => if m.less best then m else best) n)

/-- Added up from the left; whole numbers stay exact among themselves. -/
def sum (numbers : List Number) : Result Number :=
  numbers.foldlM Number.add (.int 0)

def ascending (numbers : List Number) : List Number :=
  numbers.mergeSort fun a b => !b.less a

def median (numbers : List Number) : Result (Option Number) :=
  let sorted := ascending numbers
  let half := numbers.length / 2
  if numbers.length % 2 = 1 then .ok sorted[half]?
  else
    match sorted[half - 1]?, sorted[half]? with
    | some a, some b => do
      let both ← a.add b
      let middle ← both.div (.int 2)
      return some middle
    | _, _ => .ok none

def infiniteSum (floats : List Float) : Float :=
  floats.foldl (fun acc x => if Binary64.isFinite x then acc else acc + x) 0

/-- The exact sum of the finite numbers; every part of it from the left must be in range. -/
def finiteSum (floats : List Float) : Result Rat :=
  floats.foldlM (fun acc x =>
    match Binary64.value? x with
    | none => .ok acc
    | some q =>
      match Binary64.nearest? (acc + q) with
      | some _ => .ok (acc + q)
      | none => .error .tooLarge) 0

/-- The mean of the numbers: their exact sum, rounded once and divided by their count. -/
def mean (numbers : List Number) : Result Float := do
  let floats ← numbers.mapM Number.toFloat
  let total ← finiteSum floats
  let infinite := infiniteSum floats
  let count := Float.ofNat numbers.length
  if Binary64.isNaN infinite then throw .badValue
  else if infinite == 0 then
    match Binary64.nearest? total with
    | some x => return x / count
    | none => throw .tooLarge
  else return infinite / count

def isWhole : Number → Bool
  | .int _ => true
  | .float _ => false

/-- The mean squared distance from the mean, exactly; none if a number is infinite. -/
def variance? (numbers : List Number) : Option Rat := do
  let values ← numbers.mapM fun n =>
    match n with
    | .int n => some (n : Rat)
    | .float x => Binary64.value? x
  let count := (numbers.length : Rat)
  let total := values.foldl (· + ·) 0
  let squares := values.foldl (fun acc q => acc + q * q) 0
  return (count * squares - total * total) / count / count

def infiniteVariance (numbers : List Number) : Float :=
  infiniteSum (numbers.filterMap fun n =>
    match n with
    | .int _ => none
    | .float x => some x)

/-- The variance; of whole numbers it is whole where it can be. -/
def variance (numbers : List Number) : Result Number :=
  match variance? numbers with
  | some q =>
    if numbers.all isWhole && q.den = 1 then .ok (.int q.num)
    else
      match Binary64.nearest? q with
      | some x => .ok (.float x)
      | none => .error .tooLarge
  | none => .ok (.float (infiniteVariance numbers))

def squareRoot (n : Nat) : Nat :=
  go (n.log2 + 2) 0 (n + 1)
where
  go : Nat → Nat → Nat → Nat
    | 0, low, _ => low
    | fuel + 1, low, high =>
      if low + 1 < high then
        let mid := (low + high) / 2
        if mid * mid ≤ n then go fuel mid high else go fuel low mid
      else low

/-- The square root rounded once. It is cut off at many more digits than a `Float` has, and an odd last
digit stands for all that was cut. -/
def rootOf (q : Rat) : Result Float :=
  if q = 0 then .ok 0
  else
    let shift := ((q.den.log2 : Int) - q.num.toNat.log2 + 120) / 2
    let scaled := q * (2 : Rat) ^ (2 * shift)
    let whole := scaled.floor.toNat
    let root := squareRoot whole
    let root := if root % 2 = 0 ∧ (root * root : Nat) ≠ scaled then root + 1 else root
    match Binary64.nearest? (root / (2 : Rat) ^ shift) with
    | some x => .ok x
    | none => .error .tooLarge

def standardDeviation (numbers : List Number) : Result Float :=
  match variance? numbers with
  | some q => rootOf q
  | none => .error .noMember

inductive Aggregation where
  | count
  | average
  | maximum
  | minimum
  | sum
  | median
  | standardDeviation
  | variance
  | mode
  | countUnique
  deriving DecidableEq, Repr

namespace Aggregation

def all : List Aggregation :=
  [count, average, maximum, minimum, sum, median, standardDeviation, variance, mode, countUnique]

def name : Aggregation → String
  | count => "count"
  | average => "average"
  | maximum => "maximum"
  | minimum => "minimum"
  | sum => "sum"
  | median => "median"
  | standardDeviation => "stdev"
  | variance => "variance"
  | mode => "mode"
  | countUnique => "countUnique"

/-- The aggregation that a document names; no name counts the rows. -/
def ofJson (value : Json) : Result Aggregation :=
  if !value.truthy then .ok count
  else
    match value with
    | .list _ | .object _ => .error .typeMismatch
    | _ =>
      match all.find? fun a => value.isTheText a.name with
      | some a => .ok a
      | none => .error (.unsupportedAggregation value)

def onNumbers (statistic : List Number → Result Json) (values : List Json) : Result Json := do
  let found ← numbers values
  if found.isEmpty then return .null else statistic found

def numberJson (n : Option Number) : Json :=
  match n with
  | some n => .ofNumber n
  | none => .null

/-- The value of an aggregation over a list of values. -/
def apply (a : Aggregation) (values : List Json) : Result Json :=
  match a with
  | count => .ok (.int values.length)
  | average => onNumbers (fun ns => (mean ns).map .float) values
  | maximum => onNumbers (fun ns => .ok (numberJson (largest ns))) values
  | minimum => onNumbers (fun ns => .ok (numberJson (smallest ns))) values
  | sum => do
    let found ← numbers values
    let total ← Statistics.sum found
    return .ofNumber total
  | median => onNumbers (fun ns => (Statistics.median ns).map numberJson) values
  | standardDeviation => onNumbers (fun ns => (Statistics.standardDeviation ns).map .float) values
  | variance => onNumbers (fun ns => (Statistics.variance ns).map .ofNumber) values
  | mode => do
    let counts ← Tally.ofList values
    return (Tally.mostCommon counts).getD .null
  | countUnique => do
    let counts ← Tally.ofList (values.filter fun v => !v.isNull)
    return .int counts.length

end Aggregation

end MapLayers.Statistics
