import MapLayers.Color.Specifier
import MapLayers.Interpolation
import MapLayers.Json.Access
import MapLayers.Statistics

/-!
# Scales

A scale maps a data value to a color, a size or any other value. It has a domain, a range and an
answer for values that it cannot place. Continuous scales interpolate between the entries of their
range, bucket scales choose one entry, ordinal and point scales look the value up in the domain.
The breaks of a quantile scale are kept until its domain or its range is set again.
-/

namespace MapLayers

inductive ScaleKind where
  | linear
  | log
  | sqrt
  | ordinal
  | point
  | quantile
  | quantize
  | custom
  | identity
  deriving DecidableEq, Repr

namespace ScaleKind

def all : List ScaleKind :=
  [linear, log, sqrt, ordinal, point, quantile, quantize, custom, identity]

def name : ScaleKind → String
  | linear => "linear"
  | log => "log"
  | sqrt => "sqrt"
  | ordinal => "ordinal"
  | point => "point"
  | quantile => "quantile"
  | quantize => "quantize"
  | custom => "custom"
  | identity => "identity"

def ofName? (s : String) : Option ScaleKind := all.find? fun kind => kind.name = s

/-- Ordinal and point scales list the values of their domain one by one. -/
def isCategorical : ScaleKind → Bool
  | ordinal | point => true
  | _ => false

/-- The kind that a document asks for. -/
def ofJson : Json → Result ScaleKind
  | .list _ | .object _ => .error .typeMismatch
  | value =>
    match value with
    | .text s =>
      match ofName? s with
      | some kind => .ok kind
      | none => .error (.unsupportedScale value)
    | _ => .error (.unsupportedScale value)

end ScaleKind

structure Scale where
  kind : ScaleKind
  domain : List Json
  range : List Json
  unknown : Json
  /-- The breaks of a quantile scale once they have been computed. -/
  keptBreaks : Option (List Number)

namespace Scale

def firstDomain : ScaleKind → List Json
  | .linear | .sqrt | .quantize => [.int 0, .int 1]
  | .log => [.int 1, .int 10]
  | _ => []

def firstRange : ScaleKind → List Json
  | .linear | .log | .sqrt | .point => [.int 0, .int 1]
  | _ => []

def new (kind : ScaleKind) : Scale := ⟨kind, firstDomain kind, firstRange kind, .null, none⟩

def withDomain (s : Scale) (domain : List Json) : Scale :=
  { s with domain := domain, keptBreaks := none }

def withRange (s : Scale) (range : List Json) : Scale :=
  { s with range := range, keptBreaks := none }

def withUnknown (s : Scale) (unknown : Json) : Scale := { s with unknown := unknown }

/-- A position on the axis of the scale; a logarithmic axis has positive positions only. -/
def transform? : ScaleKind → Float → Option Float
  | .log, x => if x ≤ 0 then none else some x.log10
  | .sqrt, x =>
    let root := x.abs.sqrt
    some (if Binary64.signBit x then -root else root)
  | _, x => some x

/-- The stops of the axis, unless one of them is no number or off the axis. -/
def stops? (kind : ScaleKind) : List Json → Result (Option (List Number))
  | [] => .ok (some [])
  | value :: rest =>
    match value.toFloat with
    | .error fault =>
      if fault.kind = .type ∨ fault.kind = .value then .ok none else .error fault
    | .ok x =>
      match transform? kind x with
      | none => .ok none
      | some position => do
        let others ← stops? kind rest
        return others.map (.float position :: ·)

/-- Mixes two entries of the range: numbers as numbers, all else as colors. -/
def mix (start stop : Json) (t : Number) : Result Json := do
  match ← start.properNumber? with
  | some a =>
    match ← stop.properNumber? with
    | some b => (Interpolation.between a b t).map .ofNumber
    | none => (Color.blend start stop (.ofNumber t)).map Color.toJson
  | none => (Color.blend start stop (.ofNumber t)).map Color.toJson

def continuousValue (s : Scale) (value : Json) : Result Json := do
  match ← value.properNumber? with
  | none => return s.unknown
  | some n =>
    if s.domain.length < 2 || s.range.length < 2 then return s.unknown
    let x ← n.toFloat
    match transform? s.kind x with
    | none => return s.unknown
    | some position =>
      match ← stops? s.kind s.domain with
      | none => return s.unknown
      | some stops =>
        let found ← Interpolation.interpolate? mix stops s.range (.float position)
        return found.getD s.unknown

/-- The value below which a fraction `p` of the ascending numbers lies. -/
def quantileAt (values : List Float) (p : Float) : Float :=
  let h := Float.ofNat (values.length - 1) * p
  let low := ((Binary64.value? h).getD 0).floor
  let high := min (low.toNat + 1) (values.length - 1)
  let a := values[low.toNat]?.getD 0
  let b := values[high]?.getD 0
  a + (b - a) * (h - Float.ofInt low)

/-- The proper numbers among some values, as floating-point ones. -/
def properFloats : List Json → Result (List Float)
  | [] => .ok []
  | value :: rest => do
    match ← value.properNumber? with
    | none => properFloats rest
    | some n =>
      let x ← n.toFloat
      let others ← properFloats rest
      return x :: others

def floatOf : Number → Float
  | .float x => x
  | .int n => Float.ofInt n

def quantileBreaks (domain : List Json) (buckets : Nat) : Result (List Number) := do
  let numbers ← properFloats domain
  let sorted := (Statistics.ascending (numbers.map .float)).map floatOf
  if sorted.isEmpty || buckets = 0 then return []
  return (List.range (buckets - 1)).map fun i =>
    .float (quantileAt sorted (Float.ofNat (i + 1) / Float.ofNat buckets))

/-- The breaks of a quantile scale, as kept or computed. -/
def breaks (s : Scale) : Result (List Number) :=
  match s.keptBreaks with
  | some kept => .ok kept
  | none => quantileBreaks s.domain s.range.length

def quantizeBreaks (domain : List Json) (buckets : Nat) : Result (List Number) := do
  let low ← (domain.head?.getD .null).toFloat
  let high ← (domain.getLast?.getD .null).toFloat
  let count := Float.ofNat buckets
  return (List.range (buckets - 1)).map fun i =>
    .float (low + (high - low) * Float.ofNat (i + 1) / count)

def isAbove (x : Number) (stop : Number) : Result Bool := .ok (x.less stop)

/-- Compares with an entry of the domain, which has to be a number. -/
def isAboveJson (x : Number) (stop : Json) : Result Bool := do
  let n ← stop.operand
  return x.less n

/-- The bucket that a number falls into. -/
def bucket (s : Scale) (n : Number) : Result Nat := do
  match s.kind with
  | .custom => upperBound (isAboveJson n) s.domain
  | .quantile =>
    let breaks ← s.breaks
    let x ← n.toFloat
    upperBound (isAbove (.float x)) breaks
  | _ =>
    let breaks ← quantizeBreaks s.domain s.range.length
    let x ← n.toFloat
    upperBound (isAbove (.float x)) breaks

def hasBuckets (s : Scale) : Bool :=
  match s.kind with
  | .custom => true
  | .quantile => !s.range.isEmpty
  | _ => !s.range.isEmpty && 2 ≤ s.domain.length

def bucketValue (s : Scale) (value : Json) : Result Json := do
  match ← value.properNumber? with
  | none => return s.unknown
  | some n =>
    if s.hasBuckets then
      let i ← s.bucket n
      return (s.range[i]?).getD s.unknown
    else return s.unknown

def place? (s : Scale) (value : Json) : Option Nat :=
  s.domain.findIdx? fun entry => entry.same value

def ordinalValue (s : Scale) (value : Json) : Json :=
  match s.place? value with
  | some i => (s.range[i % s.range.length]?).getD s.unknown
  | none => s.unknown

/-- Evenly spaced positions between the first two entries of the range. -/
def pointValue (s : Scale) (value : Json) : Result Json := do
  match s.place? value, s.range with
  | some i, first :: second :: _ =>
    let start ← first.toFloat
    let stop ← second.toFloat
    let gaps := Float.ofNat (s.domain.length - 1)
    let step := (stop - start) / Float.ofNat (max 1 (s.domain.length - 1))
    let offset := (stop - start - step * gaps) * 0.5
    return .float (start + offset + step * Float.ofNat i)
  | _, _ => return s.unknown

def value (s : Scale) (input : Json) : Result Json :=
  match s.kind with
  | .linear | .log | .sqrt => s.continuousValue input
  | .quantile | .quantize | .custom => s.bucketValue input
  | .ordinal => .ok (s.ordinalValue input)
  | .point => s.pointValue input
  | .identity => .ok (if input.isNull then s.unknown else input)

inductive Request where
  | setDomain (values : Json)
  | setRange (values : Json)
  | setUnknown (value : Json)
  | call (input : Json)

def keeping (s : Scale) (breaks : Option (List Number)) : Scale := { s with keptBreaks := breaks }

def afterCall (s : Scale) (input : Json) : Scale :=
  match s.kind, input.properNumber? with
  | .quantile, .ok (some _) => if s.range.isEmpty then s else { s with keptBreaks := s.breaks.toOption }
  | _, _ => s

def rangeEntries : Json → Result (List Json)
  | .null => .ok []
  | values => values.elements

/-- One request: the scale after it, and the value of a call or the failure. -/
def step (s : Scale) : Request → Scale × Result (Option Json)
  | .setDomain values =>
    match values.elements with
    | .ok entries => (s.withDomain entries, .ok none)
    | .error fault => ({ s with keptBreaks := none }, .error fault)
  | .setRange values =>
    match rangeEntries values with
    | .ok entries => (s.withRange entries, .ok none)
    | .error fault => ({ s with keptBreaks := none }, .error fault)
  | .setUnknown value => (s.withUnknown value, .ok none)
  | .call input => (s.afterCall input, (s.value input).map some)

end Scale

end MapLayers
