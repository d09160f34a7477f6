import MapLayers.Interpolation
import MapLayers.Json.Access
import MapLayers.Json.Quantity

/-!
# Sizes of clusters

The radius of a cluster grows with its share of the extent of a column, and the size of its text
grows in steps with the radius.
-/

namespace MapLayers.Cluster

variable {α : Type} [Arithmetic α]

/-- Where a value lies between the ends of an extent, as a part of one. -/
def share (low high value : α) : Result α := do
  let covered ← Arithmetic.sub value low
  let whole ← Arithmetic.sub high low
  let part ← Arithmetic.div covered whole
  return Arithmetic.loweredTo (Arithmetic.ofInt 1) (Arithmetic.raisedTo (Arithmetic.ofInt 0) part)

/-- The radius for a value; an extent of a single value has the largest radius. -/
def radius (low high smallest largest value : α) : Result α :=
  if Arithmetic.same low high then .ok largest
  else do
    let t ← share low high value
    Interpolation.between smallest largest t

/-- Text sizes with the radii from which on they are used. -/
def fontSteps : List (Int × Int) := [(80, 20), (48, 18), (32, 16), (24, 15), (18, 14)]

def smallestFont : Int := 13

def fontSize (radius : α) : Int :=
  match fontSteps.find? fun step => Arithmetic.atMost (Arithmetic.ofInt step.1) radius with
  | some step => step.2
  | none => smallestFont

/-- The radius of a cluster with the given properties, by the statistics of a column. -/
def radiusOf (properties statistics radii column : Json) : Result Json := do
  let extent ← statistics.select column
  let low ← extent.field "min"
  let high ← extent.field "max"
  if low.same high then radii.item 1
  else
    let value ← properties.select column
    let value ← value.operand
    let low ← low.operand
    let high ← high.operand
    let t ← share low high value
    let smallest ← radii.item 0
    let largest ← radii.item 1
    let largest ← largest.operand
    let smallest ← smallest.operand
    let size ← Interpolation.between smallest largest t
    return .ofNumber size

def fontSizeOf (radius : Json) : Result Json := do
  let r ← radius.operand
  return .int (fontSize r)

end MapLayers.Cluster
