import MapLayers.Fault

/-!
# Upper bounds by bisection

`upperBound` halves a window until it is empty: on an ascending list it finds the number of items
that do not come after the one sought. On any other list it takes the same steps. The test may
fail, but only on an item that the search reaches.
-/

namespace MapLayers

variable {α : Type}

/-- Bisection of the window from `low` to `high`; `fuel` bounds the number of halvings. -/
def bisect (isAbove : α → Result Bool) (items : List α) : Nat → Nat → Nat → Result Nat
  | 0, low, _ => .ok low
  | fuel + 1, low, high =>
    if low < high then
      let mid := (low + high) / 2
      match items[mid]? with
      | none => .ok low
      | some item => do
        if ← isAbove item then bisect isAbove items fuel low mid
        else bisect isAbove items fuel (mid + 1) high
    else .ok low

def upperBoundBetween (isAbove : α → Result Bool) (items : List α) (low high : Nat) : Result Nat :=
  bisect isAbove items (high - low) low high

def upperBound (isAbove : α → Result Bool) (items : List α) : Result Nat :=
  upperBoundBetween isAbove items 0 items.length

/-- The leading run: descending strictly, or else not descending at all. -/
def leadingRun (below : α → α → Bool) : List α → List α × List α
  | [] => ([], [])
  | [x] => ([x], [])
  | x :: y :: rest =>
    let descends := below y x
    let (run, others) := go descends y rest
    (if descends then (x :: run).reverse else x :: run, others)
where
  go (descends : Bool) (last : α) : List α → List α × List α
    | [] => ([last], [])
    | z :: rest =>
      if below z last = descends then
        let (run, others) := go descends z rest
        (last :: run, others)
      else ([last], z :: rest)

def insertAbove (below : α → α → Bool) (items : List α) (item : α) : List α :=
  match upperBound (fun other => .ok (below item other)) items with
  | .ok position => items.take position ++ item :: items.drop position
  | .error _ => items

/-- A stable ascending sort: the leading run, and every further item put in its place. -/
def insertionSort (below : α → α → Bool) (items : List α) : List α :=
  let (run, others) := leadingRun below items
  others.foldl (insertAbove below) run

end MapLayers
