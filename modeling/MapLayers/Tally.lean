import MapLayers.Json.Compare

/-!
# Counting values

Equal values are counted together under the form in which the first of them was seen. Lists and
objects cannot be counted.
-/

namespace MapLayers.Tally

/-- Values with their numbers of occurrences, in order of first occurrence. -/
abbrev Counts := List (Json × Nat)

def addOne (value : Json) : Counts → Counts
  | [] => [(value, 1)]
  | (other, n) :: rest =>
    if other.same value then (other, n + 1) :: rest else (other, n) :: addOne value rest

def ofList (values : List Json) : Result Counts :=
  if values.all Json.hashable then .ok (values.foldl (fun counts value => addOne value counts) [])
  else .error .typeMismatch

/-- The first value among those that occur most often. -/
def mostCommon : Counts → Option Json
  | [] => none
  | (value, n) :: rest => some (best value n rest)
where
  best (value : Json) (n : Nat) : Counts → Json
    | [] => value
    | (other, m) :: rest => if n < m then best other m rest else best value n rest

end MapLayers.Tally
