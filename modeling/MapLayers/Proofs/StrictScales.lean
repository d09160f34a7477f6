import MapLayers.Proofs.FloatArithmetic
import MapLayers.Proofs.ScaleFaults

/-!
# Strict scales

A call of a scale takes entries of its stops, its breaks and its range by their index, and divides by counts
of them. The calls here take strict steps only: an index that does not lie in its list is a failure, and so is
a division by zero. How entries compare is left open.
-/

namespace MapLayers

variable {α : Type}

open Result

namespace Strict

/-- The entry at an index, which has to lie in the list. -/
def entry (items : List α) (index : Int) : Result α :=
  if index < 0 then .error .badIndex
  else
    match items[index.toNat]? with
    | some found => .ok found
    | none => .error .badIndex

def quotient (x y : Float) : Result Float :=
  if y == 0 then .error .divisionByZero else .ok (x / y)

def remainder (m n : Nat) : Result Nat :=
  if n = 0 then .error .divisionByZero else .ok (m % n)

def bisect (isAbove : α → Result Bool) (items : List α) : Nat → Nat → Nat → Result Nat
  | 0, low, _ => .ok low
  | fuel + 1, low, high =>
    if low < high then do
      let mid := (low + high) / 2
      let found ← entry items mid
      if ← isAbove found then bisect isAbove items fuel low mid
      else bisect isAbove items fuel (mid + 1) high
    else .ok low

def upperBound (isAbove : α → Result Bool) (items : List α) : Result Nat :=
  bisect isAbove items items.length 0 items.length

theorem entry_eq {items : List α} {i : Nat} {found : α} (h : items[i]? = some found) :
    entry items i = .ok found := by
  have hnonneg : ¬(i : Int) < 0 := by omega
  rw [entry, if_neg hnonneg, Int.toNat_natCast, h]

theorem quotient_ofNat (x : Float) {n : Nat} (h : 0 < n) :
    quotient x (Float.ofNat n) = .ok (x / Float.ofNat n) := by
  have hnonzero : (Float.ofNat n == 0) = false := by
    refine Bool.eq_false_iff.mpr fun hzero => ?_
    -- Rounding keeps a count above one.
    have hvalue := Binary64.value?_of_beq_zero hzero
    rw [Binary64.value?_ofNat] at hvalue
    have hrounded := Binary64.eq_of_nearestValue? hvalue
    have hone : (1 : Rat) ≤ Binary64.rounded n :=
      Binary64.le_rounded Binary64.representable_one (by exact_mod_cast h)
    linarith
  rw [quotient, hnonzero]
  rfl

/-- A bisection of a window inside the list looks at entries of the list only. -/
theorem bisect_eq (isAbove : α → Result Bool) {items : List α} {fuel low high : Nat}
    (hhigh : high ≤ items.length) :
    bisect isAbove items fuel low high = MapLayers.bisect isAbove items fuel low high := by
  induction fuel generalizing low high with
  | zero => rfl
  | succ fuel ih =>
    unfold bisect MapLayers.bisect
    split
    · next hlt =>
      have hmid : (low + high) / 2 < items.length := by omega
      have hfound := List.getElem?_eq_getElem hmid
      simp only [hfound, entry_eq hfound, Result.ok_bind]
      rw [ih hmid.le, ih hhigh]
    · rfl

theorem upperBound_eq (isAbove : α → Result Bool) (items : List α) :
    upperBound isAbove items = MapLayers.upperBound isAbove items :=
  bisect_eq isAbove le_rfl

end Strict

/-- The fault comes neither from an index outside its list nor from a division by zero. -/
def Fault.isInside (fault : Fault) : Bool := fault.kind ≠ .index && fault.kind ≠ .division

theorem Fault.kind_ne_index {fault : Fault} (h : fault.isInside = true) : fault.kind ≠ .index := by
  intro hkind
  simp [isInside, hkind] at h

theorem Fault.kind_ne_division {fault : Fault} (h : fault.isInside = true) : fault.kind ≠ .division := by
  intro hkind
  simp [isInside, hkind] at h

theorem Fault.kind_ne_index_of_isOfValues {fault : Fault} (h : fault.isOfValues = true) :
    fault.kind ≠ .index := by
  intro hkind
  simp [isOfValues, hkind] at h

/-- The computation misses no index and divides by no zero. -/
abbrev Result.StaysInside (r : Result α) : Prop := FailsOnly (fun fault => fault.isInside = true) r

@[simp] theorem Fault.isInside_typeMismatch : typeMismatch.isInside = true := rfl

@[simp] theorem Fault.isInside_badValue : badValue.isInside = true := rfl

@[simp] theorem Fault.isInside_tooLarge : tooLarge.isInside = true := rfl

@[simp] theorem Number.toFloat_staysInside (n : Number) : StaysInside n.toFloat := by
  cases n with
  | int n =>
    unfold toFloat ofInt?
    dsimp only
    split <;> simp
  | float x => simp [toFloat]

@[simp] theorem Json.properNumber?_staysInside (value : Json) : StaysInside value.properNumber? := by
  unfold properNumber?
  split <;> simp

@[simp] theorem Json.toFloat_staysInside (value : Json) : StaysInside value.toFloat := by
  unfold toFloat
  repeat' split
  all_goals simp

/-- What comparisons between the entries of a scale come out as. -/
structure Comparisons where
  /-- Whether an entry is above a number, unless the two cannot be compared. -/
  above? : Number → Json → Option Bool
  less : Number → Number → Bool
  same : Json → Json → Bool

namespace Comparisons

/-- Comparisons as they are. -/
def exact : Comparisons where
  above? n entry := (Scale.isAboveJson n entry).toOption
  less := Number.less
  same := Json.same

def isAbove (c : Comparisons) (n : Number) (entry : Json) : Result Bool :=
  match c.above? n entry with
  | some above => .ok above
  | none => .error .typeMismatch

@[simp] theorem isAbove_computes (c : Comparisons) (n : Number) (entry : Json) :
    Computes (c.isAbove n entry) := by
  unfold isAbove
  split <;> simp

@[simp] theorem isAbove_staysInside (c : Comparisons) (n : Number) (entry : Json) :
    StaysInside (c.isAbove n entry) := by
  unfold isAbove
  split <;> simp

theorem exact_isAbove (n : Number) (entry : Json) : exact.isAbove n entry = Scale.isAboveJson n entry := by
  have hstep : Scale.isAboveJson n entry = entry.operand >>= fun m => .ok (n.less m) := rfl
  simp only [isAbove, exact, hstep, Json.operand]
  cases entry.quantity? <;> rfl

theorem exact_isAbove_ofNumber (n stop : Number) : exact.isAbove n (.ofNumber stop) = .ok (n.less stop) := by
  rw [exact_isAbove]
  cases stop <;> rfl

end Comparisons

namespace Scale

variable (c : Comparisons) (s : Scale)

/-- The index of the piece on which `x` lies. -/
def strictPiece (stops : List Number) (pieces : Nat) (x : Number) : Result Int :=
  if 1 < pieces then do
    let position ← Strict.bisect (fun stop => c.isAbove x (.ofNumber stop)) stops (pieces - 1) 1 pieces
    return min (max ((position : Int) - 1) 0) ((pieces : Int) - 1)
  else .ok 0

def strictMix (stops : List Number) (x : Number) : Result Json := do
  let piece ← strictPiece c stops (min stops.length s.range.length - 1) x
  let start ← Strict.entry stops piece
  let stop ← Strict.entry stops (piece + 1)
  let t ← Interpolation.proportion start stop x
  let first ← Strict.entry s.range piece
  let last ← Strict.entry s.range (piece + 1)
  mix first last t

def strictContinuousValue (input : Json) : Result Json := do
  match ← input.properNumber? with
  | none => return s.unknown
  | some n =>
    if s.domain.length < 2 || s.range.length < 2 then return s.unknown
    let x ← n.toFloat
    match transform? s.kind x with
    | none => return s.unknown
    | some position =>
      match ← stops? s.kind s.domain with
      | none => return s.unknown
      | some stops => s.strictMix c stops (.float position)

/-- The value below which `i` of `n` equal parts of the ascending numbers lie. -/
def strictQuantile (values : List Float) (i n : Nat) : Result Float := do
  let p ← Strict.quotient (Float.ofNat i) (Float.ofNat n)
  let h := Float.ofNat (values.length - 1) * p
  let low ← (Number.float h).toInt Rat.floor
  let a ← Strict.entry values low
  let b ← Strict.entry values (min (low + 1) (values.length - 1))
  return a + (b - a) * (h - Float.ofInt low)

/-- Numbers in the order that comparisons give them. -/
def sortedBy (less : Number → Number → Bool) (numbers : List Float) : List Float :=
  ((numbers.map .float).mergeSort fun a b => !less b a).map floatOf

def strictQuantileBreaks (domain : List Json) (buckets : Nat) : Result (List Number) := do
  let numbers ← properFloats domain
  let sorted := sortedBy c.less numbers
  if sorted.isEmpty || buckets = 0 then return []
  (List.range (buckets - 1)).mapM fun i => (strictQuantile sorted (i + 1) buckets).map .float

def strictQuantizeBreaks (domain : List Json) (buckets : Nat) : Result (List Number) := do
  let first ← Strict.entry domain 0
  let low ← first.toFloat
  let last ← Strict.entry domain (domain.length - 1)
  let high ← last.toFloat
  (List.range (buckets - 1)).mapM fun i => do
    let part ← Strict.quotient ((high - low) * Float.ofNat (i + 1)) (Float.ofNat buckets)
    return .float (low + part)

def strictBreaks : Result (List Number) :=
  match s.keptBreaks with
  | some kept => .ok kept
  | none => strictQuantileBreaks c s.domain s.range.length

def strictBucket (n : Number) : Result Nat := do
  match s.kind with
  | .custom => Strict.upperBound (c.isAbove n) s.domain
  | .quantile =>
    let breaks ← s.strictBreaks c
    let x ← n.toFloat
    Strict.upperBound (fun stop => c.isAbove (.float x) (.ofNumber stop)) breaks
  | _ =>
    let breaks ← strictQuantizeBreaks s.domain s.range.length
    let x ← n.toFloat
    Strict.upperBound (fun stop => c.isAbove (.float x) (.ofNumber stop)) breaks

/-- Only custom breaks can put a number past the range, where it is unknown. -/
def strictBucketValue (input : Json) : Result Json := do
  match ← input.properNumber? with
  | none => return s.unknown
  | some n =>
    if s.hasBuckets then
      let i ← s.strictBucket c n
      if s.kind = .custom ∧ s.range.length ≤ i then return s.unknown
      Strict.entry s.range i
    else return s.unknown

def strictOrdinalValue (input : Json) : Result Json :=
  if s.range.isEmpty then .ok s.unknown
  else
    match s.domain.findIdx? fun entry => c.same entry input with
    | none => .ok s.unknown
    | some i => do
      let place ← Strict.remainder i s.range.length
      Strict.entry s.range place

def strictPointValue (input : Json) : Result Json :=
  match s.domain.findIdx? fun entry => c.same entry input with
  | none => .ok s.unknown
  | some i =>
    if s.range.length < 2 then .ok s.unknown
    else do
      let first ← Strict.entry s.range 0
      let start ← first.toFloat
      let second ← Strict.entry s.range 1
      let stop ← second.toFloat
      let gaps := Float.ofNat (s.domain.length - 1)
      let step ← Strict.quotient (stop - start) (Float.ofNat (max 1 (s.domain.length - 1)))
      let offset := (stop - start - step * gaps) * 0.5
      return .float (start + offset + step * Float.ofNat i)

/-- The value that the scale assigns by strict steps. -/
def strictValue (input : Json) : Result Json :=
  match s.kind with
  | .linear | .log | .sqrt => s.strictContinuousValue c input
  | .quantile | .quantize | .custom => s.strictBucketValue c input
  | .ordinal => s.strictOrdinalValue c input
  | .point => s.strictPointValue c input
  | .identity => .ok (if input.isNull then s.unknown else input)

/-- Keeps the breaks that a strict call has computed. -/
def strictAfterCall (input : Json) : Scale :=
  match s.kind, input.properNumber? with
  | .quantile, .ok (some _) =>
    if s.range.isEmpty then s else { s with keptBreaks := (s.strictBreaks c).toOption }
  | _, _ => s

/-- The scale after a request, by strict steps. -/
def strictStep : Request → Scale
  | .call input => s.strictAfterCall c input
  | request => (s.step request).1

/-- The scale after some requests, each of them with comparisons of its own. -/
def strictAfter (run : List (Comparisons × Request)) : Scale :=
  run.foldl (fun s request => s.strictStep request.1 request.2) s

end Scale

end MapLayers
