import MapLayers.Color.Specifier
import MapLayers.Interpolation
import MapLayers.Proofs.FloatArithmetic

/-!
# Between two stops

Two stops make one piece, which all positions belong to. The share of it that a position has covered is
never a division by zero, since the difference of two numbers vanishes only if they are equal. A color in
some proportion between two others is rounded once for every operation on a channel, and there is none if
one of them leaves the range of floating-point numbers.
-/

namespace MapLayers

open Binary64

namespace Interpolation

variable {start stop : Float}

theorem same_of_sub_beq_zero (h : (stop - start == 0) = true) :
    (Number.float stop).same (.float start) = true := by
  have hvalue := value?_of_beq_zero h
  rw [value?_sub] at hvalue
  obtain ⟨q, hq, hvalue⟩ := Option.bind_eq_some_iff.mp hvalue
  obtain ⟨p, hp, hvalue⟩ := Option.bind_eq_some_iff.mp hvalue
  obtain rfl := eq_of_rounded_sub (of_value?_eq_some hp).1 (of_value?_eq_some hq).1
    (eq_of_nearestValue? hvalue).symm
  simp [Number.same, Number.position?_float.mpr hp, Number.position?_float.mpr hq]

/-- The share of the way between two stops that lies before `x`; half of it if they coincide. -/
def share (start stop x : Float) : Float :=
  if (Number.float stop).same (.float start) then 0.5 else (x - start) / (stop - start)

theorem proportion_float (start stop x : Float) :
    proportion (Number.float start) (Number.float stop) (Number.float x) =
      .ok (.float (share start stop x)) := by
  unfold proportion share
  split
  · next hsame =>
    have hsame' : (Number.float stop).same (.float start) = true := hsame
    rw [if_pos hsame']
    rfl
  · next hother =>
    have hother' : ¬(Number.float stop).same (.float start) = true := hother
    have hwhole : ¬(stop - start == 0) = true := fun h => hother' (same_of_sub_beq_zero h)
    rw [if_neg hother']
    change (if (stop - start == 0) = true then (throw .divisionByZero : Result Number)
      else pure (.float ((x - start) / (stop - start)))) = _
    rw [if_neg hwhole]
    rfl

/-- Entries of the range after the second have no part in an interpolation between two stops. -/
theorem interpolate?_two {ρ σ : Type} (blend : ρ → ρ → Number → Result σ) (start stop x : Float)
    (first second : ρ) (rest : List ρ) :
    interpolate? blend [.float start, .float stop] (first :: second :: rest) (.float x) =
      (blend first second (.float (share start stop x))).map some := by
  have hpieces : min 2 (rest.length + 1 + 1) - 1 = 1 := by omega
  have hpiece : pieceOf [Number.float start, .float stop] 1 (.float x) = .ok 0 := rfl
  simp only [interpolate?, List.length_cons, List.length_nil, Nat.reduceAdd, hpieces, hpiece,
    Result.ok_bind, List.getElem?_cons_zero, List.getElem?_cons_succ, proportion_float]
  cases blend first second (.float (share start stop x)) <;> rfl

end Interpolation

theorem Number.combine_int_float (onInt : Int → Int → Int) (onFloat : Float → Float → Float) (n : Int)
    (x : Float) : (Number.combine onInt onFloat (.int n) (.float x)).toOption =
      (nearest? n).map fun y => .float (onFloat y x) := by
  unfold Number.combine Number.toFloat Number.ofInt?
  dsimp only
  cases nearest? n <;> rfl

namespace Color

/-- One channel in proportion `t` between two, if it stays in range. -/
def mixedChannel? (a b : Int) (t : Rat) : Option Int := do
  let start ← nearestValue? a
  let way ← nearestValue? (b - a : Int)
  let part ← nearestValue? (way * t)
  (nearestValue? (start + part)).map fun mixed => clampByte (roundHalfEven mixed)

theorem channel_float (x : Float) :
    (channel (.float x)).toOption = (value? x).map fun q => clampByte (roundHalfEven q) := by
  have hfloat : (Json.float x).toFloat = .ok x := rfl
  simp only [channel, hfloat, Result.ok_bind, Number.toInt]
  cases value? x <;> rfl

theorem blendChannel_steps (a b : Int) (t : Float) : (blendChannel a b (.float t)).toOption =
    (nearest? (b - a : Int)).bind fun way => (nearest? a).bind fun start =>
      (value? (start + way * t)).map fun q => clampByte (roundHalfEven q) := by
  simp only [blendChannel, Number.mul, Number.add, Result.toOption_bind, Number.combine_int_float]
  cases nearest? (b - a : Int) with
  | none => rfl
  | some way =>
    rw [Option.map_some, Option.bind_some, Option.bind_some, Number.combine_int_float]
    cases nearest? a with
    | none => rfl
    | some start => exact channel_float _

theorem blendChannel_toOption (a b : Int) (t : Float) :
    (blendChannel a b (.float t)).toOption = (value? t).bind (mixedChannel? a b) := by
  rw [blendChannel_steps]
  delta mixedChannel?
  simp only [Option.bind_eq_bind, ← nearest?_bind_value?]
  cases hway : nearest? (b - a : Int) with
  | none => cases value? t <;> cases nearest? a <;> simp
  | some way =>
    cases hstart : nearest? a with
    | none => cases value? t <;> simp
    | some start =>
      simp only [Option.bind_some, value?_add, value?_mul, value?_nearest hway, value?_nearest hstart,
        nearest?_bind_value?]
      cases value? t <;> simp [Option.map_bind]

/-- The color in proportion `t` between two, if all its channels stay in range. -/
def mixed? (a b : Color) (t : Rat) : Option Color := do
  let red ← mixedChannel? a.red b.red t
  let green ← mixedChannel? a.green b.green t
  let blue ← mixedChannel? a.blue b.blue t
  let alpha ← mixedChannel? a.alpha b.alpha t
  return ⟨red, green, blue, alpha⟩

theorem blend_toOption {first second : Json} {a b : Color} (ha : ofJson first = .ok a)
    (hb : ofJson second = .ok b) (t : Float) :
    (blend first second (.float t)).toOption = (value? t).bind (mixed? a b) := by
  have ht : (Json.float t).operand = .ok (.float t) := rfl
  simp only [blend, ha, hb, ht, Result.ok_bind, Result.toOption_bind, blendChannel_toOption,
    Result.toOption_pure]
  cases value? t with
  | none => rfl
  | some τ => rfl

end Color

end MapLayers
