import MapLayers.Entries
import MapLayers.Json.Literal

/-!
# Keys of prop tables

A key names a field of an object or a position in a list. A boolean is the position one or zero, and
is shown as it was written.
-/

namespace MapLayers

inductive PropKey where
  | field (name : String)
  | position (index : Int)
  | flag (value : Bool)
  deriving DecidableEq, Repr

namespace PropKey

/-- The position that a key means in a list. -/
def index? : PropKey → Option Int
  | field _ => none
  | position n => some n
  | flag b => some (if b then 1 else 0)

/-- Two keys are equal when they select the same field or the same position. -/
def same : PropKey → PropKey → Bool
  | field a, field b => a = b
  | a, b => a.index?.isSome && a.index? = b.index?

instance : BEq PropKey := ⟨same⟩

instance : EquivBEq PropKey where
  rfl {a} := by cases a <;> simp [BEq.beq, same, index?]
  symm {a b} h := by
    cases a <;> cases b <;> simp_all [BEq.beq, same, index?]
  trans {a b c} h₁ h₂ := by
    cases a <;> cases b <;> cases c <;> simp_all [BEq.beq, same, index?]

def text : PropKey → String
  | field name => name
  | position n => Decimal.integerText n
  | flag b => (Json.bool b).literal

end PropKey

end MapLayers
