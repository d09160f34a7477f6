/-!
# Sets of characters by code range
-/

namespace MapLayers.Text

/-- A set of characters, given by ascending inclusive ranges of code points. -/
abbrev CodeRanges := List (Nat × Nat)

def CodeRanges.contains (ranges : CodeRanges) (c : Char) : Bool :=
  ranges.any fun r => r.1 ≤ c.toNat && c.toNat ≤ r.2

end MapLayers.Text
