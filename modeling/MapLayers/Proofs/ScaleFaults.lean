import MapLayers.Accessor.Basic
import MapLayers.Proofs.Bisection

/-!
# What can fail in a scale

A scale computes with values and nothing else: whatever makes it fail is a wrong value or type, a number
out of range or a division by zero. The same holds of the color that is made of what a scale gives.
-/

namespace MapLayers

/-- A fault of computing with values. -/
def Fault.isOfValues (fault : Fault) : Bool :=
  match fault.kind with
  | .value | .type | .overflow | .division => true
  | _ => false

namespace Fault

@[simp] theorem isOfValues_typeMismatch : typeMismatch.isOfValues = true := rfl

@[simp] theorem isOfValues_badValue : badValue.isOfValues = true := rfl

@[simp] theorem isOfValues_tooLarge : tooLarge.isOfValues = true := rfl

@[simp] theorem isOfValues_divisionByZero : divisionByZero.isOfValues = true := rfl

theorem kind_ne_key {fault : Fault} (h : fault.isOfValues = true) : fault.kind ≠ .key := by
  intro hkind
  simp [isOfValues, hkind] at h

end Fault

namespace Result

variable {α : Type}

/-- The computation fails only where values do not allow it. -/
abbrev Computes (r : Result α) : Prop := FailsOnly (fun fault => fault.isOfValues = true) r

end Result

open Result

namespace Number

@[simp] theorem toFloat_computes (n : Number) : Computes n.toFloat := by
  cases n with
  | int n =>
    unfold toFloat ofInt?
    dsimp only
    split <;> simp
  | float x => simp [toFloat]

@[simp] theorem toInt_computes (round : Rat → Int) (n : Number) : Computes (n.toInt round) := by
  cases n with
  | int n => simp [toInt]
  | float x =>
    unfold toInt
    dsimp only
    split
    · simp
    · cases Binary64.isNaN x <;> simp

theorem combine_computes (onInt : Int → Int → Int) (onFloat : Float → Float → Float)
    (m n : Number) : Computes (combine onInt onFloat m n) := by
  unfold combine
  split <;> simp

@[simp] theorem add_computes (m n : Number) : Computes (m.add n) := combine_computes _ _ m n

@[simp] theorem sub_computes (m n : Number) : Computes (m.sub n) := combine_computes _ _ m n

@[simp] theorem mul_computes (m n : Number) : Computes (m.mul n) := combine_computes _ _ m n

@[simp] theorem div_computes (m n : Number) : Computes (m.div n) := by
  unfold div
  repeat' split
  all_goals simp

end Number

namespace Json

@[simp] theorem properNumber?_computes (value : Json) : Computes value.properNumber? := by
  unfold properNumber?
  split <;> simp

@[simp] theorem toFloat_computes (value : Json) : Computes value.toFloat := by
  unfold toFloat
  repeat' split
  all_goals simp

@[simp] theorem operand_computes (value : Json) : Computes value.operand := by
  unfold operand
  split <;> simp

end Json

namespace Color

@[simp] theorem channel_computes (value : Json) : Computes (channel value) := by
  simp [channel]

@[simp] theorem ofSpecifier_computes (s : String) : Computes (ofSpecifier s) := by
  unfold ofSpecifier
  dsimp only
  repeat' split
  · exact failsOnly_error.mpr rfl
  · exact failsOnly_ok _
  · exact failsOnly_error.mpr rfl

@[simp] theorem ofJson_computes (value : Json) : Computes (ofJson value) := by
  unfold ofJson
  split
  · exact ofSpecifier_computes _
  · simp
  · simp
  · exact failsOnly_error.mpr rfl

@[simp] theorem blend_computes (start stop t : Json) : Computes (blend start stop t) := by
  simp [blend, blendChannel]

end Color

namespace Interpolation

@[simp] theorem pieceOf_computes (stops : List Number) (pieces : Nat) (x : Number) :
    Computes (pieceOf stops pieces x) := by
  unfold pieceOf
  split
  · simp [upperBoundBetween, bisect_failsOnly]
  · simp

@[simp] theorem proportion_computes (start stop x : Number) :
    Computes (proportion start stop x) := by
  simp [proportion, Arithmetic.sub, Arithmetic.div]

@[simp] theorem between_computes (start stop t : Number) : Computes (between start stop t) := by
  simp [between, Arithmetic.sub, Arithmetic.mul, Arithmetic.add]

theorem interpolate?_computes {ρ σ : Type} {blend : ρ → ρ → Number → Result σ}
    (h : ∀ start stop t, Computes (blend start stop t)) (stops : List Number) (range : List ρ)
    (x : Number) : Computes (interpolate? blend stops range x) := by
  simp only [interpolate?, failsOnly_bind, pieceOf_computes, true_and]
  intro piece _
  split <;> simp [h]

end Interpolation

namespace Scale

@[simp] theorem stops?_computes (kind : ScaleKind) (values : List Json) :
    Computes (stops? kind values) := by
  induction values with
  | nil => simp [stops?]
  | cons value rest ih =>
    unfold stops?
    split
    · next fault hfault =>
      have hvalue := Json.toFloat_computes value fault hfault
      split <;> simp [hvalue]
    · split <;> simp [ih]

@[simp] theorem mix_computes (start stop : Json) (t : Number) : Computes (mix start stop t) := by
  simp only [mix, failsOnly_bind, Json.properNumber?_computes, true_and]
  intro first _
  split
  · simp only [failsOnly_bind, Json.properNumber?_computes, true_and]
    intro second _
    split <;> simp
  · simp

variable (s : Scale)

@[simp] theorem continuousValue_computes (input : Json) : Computes (s.continuousValue input) := by
  simp only [continuousValue, failsOnly_bind, Json.properNumber?_computes, true_and]
  intro number _
  split
  · simp
  · split
    · simp
    · simp only [failsOnly_bind, Number.toFloat_computes, true_and]
      intro x _
      split
      · simp
      · simp only [failsOnly_bind, stops?_computes, true_and]
        intro stops _
        split
        · simp
        · simp [Interpolation.interpolate?_computes]

@[simp] theorem properFloats_computes (values : List Json) : Computes (properFloats values) := by
  induction values with
  | nil => simp [properFloats]
  | cons value rest ih =>
    simp only [properFloats, failsOnly_bind, Json.properNumber?_computes, true_and]
    intro number _
    split <;> simp [ih]

@[simp] theorem quantileBreaks_computes (domain : List Json) (buckets : Nat) :
    Computes (quantileBreaks domain buckets) := by
  simp [quantileBreaks]

@[simp] theorem breaks_computes : Computes s.breaks := by
  unfold breaks
  split <;> simp

@[simp] theorem quantizeBreaks_computes (domain : List Json) (buckets : Nat) :
    Computes (quantizeBreaks domain buckets) := by
  simp [quantizeBreaks]

@[simp] theorem bucket_computes (n : Number) : Computes (s.bucket n) := by
  have habove : ∀ stop, Computes (isAboveJson n stop) := fun stop => by simp [isAboveJson]
  have hbelow : ∀ x stop, Computes (isAbove x stop) := fun _ _ => failsOnly_ok _
  unfold bucket
  split <;> simp [upperBound_failsOnly, habove, hbelow]

@[simp] theorem bucketValue_computes (input : Json) : Computes (s.bucketValue input) := by
  simp only [bucketValue, failsOnly_bind, Json.properNumber?_computes, true_and]
  intro number _
  split <;> simp

@[simp] theorem pointValue_computes (input : Json) : Computes (s.pointValue input) := by
  unfold pointValue
  split <;> simp

/-- A scale fails only where values do not allow it. -/
@[simp] theorem value_computes (input : Json) : Computes (s.value input) := by
  unfold value
  split <;> simp

end Scale

@[simp] theorem Accessor.colorOfShade_computes (alpha : Int) (value shade : Json) :
    Computes (colorOfShade alpha value shade) := by
  simp [colorOfShade]

end MapLayers
