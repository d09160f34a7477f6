import MapLayers.Numeric.Arithmetic
import MapLayers.Search

/-!
# Piecewise interpolation

Stops divide an axis into pieces, and each piece is mapped between two neighbouring entries of a
range. The end pieces extend beyond the outermost stops; surplus stops or entries are not used.
-/

namespace MapLayers.Interpolation

variable {α : Type} [Arithmetic α]

def pieceOf (stops : List α) (pieces : Nat) (x : α) : Result Nat :=
  if 1 < pieces then do
    let position ← upperBoundBetween (fun stop => .ok (Arithmetic.less x stop)) stops 1 pieces
    return min (position - 1) (pieces - 1)
  else .ok 0

/-- How far `x` lies on the way between two stops; halfway if they coincide. -/
def proportion (start stop x : α) : Result α :=
  if Arithmetic.same stop start then .ok Arithmetic.half
  else do
    let covered ← Arithmetic.sub x start
    let whole ← Arithmetic.sub stop start
    Arithmetic.div covered whole

def between (start stop t : α) : Result α := do
  let way ← Arithmetic.sub stop start
  let part ← Arithmetic.mul way t
  Arithmetic.add start part

/-- The entry of a range at position `x` of the stops; `blend` mixes neighbouring entries. With
fewer than two stops or two entries there is none. -/
def interpolate? {ρ σ : Type} (blend : ρ → ρ → α → Result σ) (stops : List α) (range : List ρ)
    (x : α) : Result (Option σ) := do
  let pieces := min stops.length range.length - 1
  let piece ← pieceOf stops pieces x
  match stops[piece]?, stops[piece + 1]?, range[piece]?, range[piece + 1]? with
  | some t₀, some t₁, some r₀, some r₁ => do
    let t ← proportion t₀ t₁ x
    let value ← blend r₀ r₁ t
    return some value
  | _, _, _, _ => return none

end MapLayers.Interpolation
