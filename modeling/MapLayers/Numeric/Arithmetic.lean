import MapLayers.Numeric.Number

/-!
# Arithmetic that may fail

The numeric rules of the library (interpolation, cluster sizes, compact labels) are written over
any carrier with these operations: the numbers of a document, where an operation can overflow or
divide by zero, and the rationals, where nothing is rounded.
-/

namespace MapLayers

class Arithmetic (α : Type) where
  ofInt : Int → α
  half : α
  add : α → α → Result α
  sub : α → α → Result α
  mul : α → α → Result α
  div : α → α → Result α
  less : α → α → Bool
  atMost : α → α → Bool
  same : α → α → Bool

namespace Arithmetic

variable {α : Type} [Arithmetic α]

/-- `value`, or the bound if the value does not exceed it. -/
def raisedTo (bound value : α) : α := if less bound value then value else bound

/-- `value`, or the bound if the value is not below it. -/
def loweredTo (bound value : α) : α := if less value bound then value else bound

end Arithmetic

instance : Arithmetic Number where
  ofInt n := .float (Float.ofInt n)
  half := .float 0.5
  add := Number.add
  sub := Number.sub
  mul := Number.mul
  div := Number.div
  less := Number.less
  atMost := Number.atMost
  same := Number.same

instance : Arithmetic Rat where
  ofInt n := n
  half := 1 / 2
  add a b := .ok (a + b)
  sub a b := .ok (a - b)
  mul a b := .ok (a * b)
  div a b := if b = 0 then .error .divisionByZero else .ok (a / b)
  less a b := a < b
  atMost a b := a ≤ b
  same a b := a = b

end MapLayers
