import MapLayers.Json.Quantity

/-!
# Colors

A color has four whole-number channels, usually bytes, the last one being its opacity. Numbers
become channels by rounding to the nearest byte.
-/

namespace MapLayers

structure Color where
  red : Int
  green : Int
  blue : Int
  alpha : Int
  deriving DecidableEq, Repr, Inhabited

namespace Color

def ofBytes (rgb : Nat) : Color := ⟨rgb / 65536, rgb / 256 % 256, rgb % 256, 255⟩

/-- The nearest byte of a whole number. -/
def clampByte (n : Int) : Int := if n < 0 then 0 else if 255 < n then 255 else n

theorem clampByte_mem (n : Int) : 0 ≤ clampByte n ∧ clampByte n ≤ 255 := by
  unfold clampByte
  split
  · omega
  · split <;> omega

theorem clampByte_eq {n : Int} (low : 0 ≤ n) (high : n ≤ 255) : clampByte n = n := by
  have h₁ : ¬n < 0 := by omega
  have h₂ : ¬255 < n := by omega
  simp [clampByte, h₁, h₂]

/-- A value as a channel: read as a number, rounded half to even and brought into range. -/
def channel (value : Json) : Result Int := do
  let x ← value.toFloat
  let n ← (Number.float x).toInt roundHalfEven
  return clampByte n

def toJson (c : Color) : Json := .list [.int c.red, .int c.green, .int c.blue, .int c.alpha]

/-- Opacity as a channel: a number above one is a percentage, any other a fraction; a half rounds
up, and no opacity is full opacity. -/
def alphaOfOpacity : Json → Result Int
  | .null => .ok 255
  | value => do
    let opacity ← value.toFloat
    let fraction := if 1 < opacity then opacity / 100 else opacity
    let n ← (Number.float (255 * fraction + 0.5)).toInt Rat.floor
    return clampByte n

end Color

end MapLayers
