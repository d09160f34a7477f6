import Mathlib.Data.List.Sort
import MapLayers.Proofs.Bisection

/-!
# Sorting by insertion

A comparison that goes by the ranks of items sorts a list into one with rising ranks that holds the same
items. The leading run is sorted when it has been read, and every further item is put at the place that a
bisection finds for it.
-/

namespace MapLayers

variable {α ρ : Type} [LinearOrder ρ] {below : α → α → Bool} {rank : α → ρ}

/-- Items compare as their ranks do. -/
def ComparesBy (below : α → α → Bool) (rank : α → ρ) : Prop :=
  ∀ a b, below a b = true ↔ rank a < rank b

/-- The ranks do not fall. -/
def Rises (rank : α → ρ) (items : List α) : Prop := items.Pairwise fun a b => rank a ≤ rank b

theorem insertAbove_eq (h : ComparesBy below rank) {items : List α} (hitems : Rises rank items)
    (item : α) : ∃ place, insertAbove below items item = items.take place ++ item :: items.drop place ∧
      (∀ other ∈ items.take place, rank other ≤ rank item) ∧
      ∀ other ∈ items.drop place, rank item < rank other := by
  have hascends : Ascends (below item) items := by
    refine hitems.imp fun {a b} hle habove => ?_
    exact (h item b).mpr (((h item a).mp habove).trans_le hle)
  obtain ⟨place, hplace, hwindow⟩ := upperBound_window hascends
  refine ⟨place, by rw [insertAbove, hplace], fun other hother => ?_, fun other hother => ?_⟩
  · have hbelow := hwindow.before other hother
    rw [← Bool.not_eq_true, h] at hbelow
    exact not_lt.mp hbelow
  · exact (h item other).mp (hwindow.behind other hother)

theorem insertAbove_perm (h : ComparesBy below rank) {items : List α} (hitems : Rises rank items)
    (item : α) : (insertAbove below items item).Perm (item :: items) := by
  obtain ⟨place, hplace, -⟩ := insertAbove_eq h hitems item
  rw [hplace]
  refine List.perm_middle.trans ?_
  rw [List.take_append_drop]

theorem insertAbove_rises (h : ComparesBy below rank) {items : List α} (hitems : Rises rank items)
    (item : α) : Rises rank (insertAbove below items item) := by
  obtain ⟨place, hplace, hbefore, hbehind⟩ := insertAbove_eq h hitems item
  have hparts : Rises rank (items.take place ++ items.drop place) := by rwa [List.take_append_drop]
  obtain ⟨htake, hdrop, hacross⟩ := List.pairwise_append.mp hparts
  rw [hplace]
  refine List.pairwise_append.mpr
    ⟨htake, List.pairwise_cons.mpr ⟨fun other hother => (hbehind other hother).le, hdrop⟩, ?_⟩
  intro a ha b hb
  rcases List.mem_cons.mp hb with rfl | hb
  · exact hbefore a ha
  · exact hacross a ha b hb

/-- Items that are put in one after the other end up among the others, in order. -/
theorem foldl_insertAbove (h : ComparesBy below rank) (others : List α) {items : List α}
    (hitems : Rises rank items) :
    (others.foldl (insertAbove below) items).Perm (items ++ others) ∧
      Rises rank (others.foldl (insertAbove below) items) := by
  induction others generalizing items with
  | nil => simpa using hitems
  | cons item rest ih =>
    obtain ⟨hperm, hrises⟩ := ih (insertAbove_rises h hitems item)
    have hput : (insertAbove below items item ++ rest).Perm (item :: items ++ rest) :=
      (insertAbove_perm h hitems item).append_right rest
    exact ⟨(hperm.trans hput).trans List.perm_middle.symm, hrises⟩

theorem go_append (below : α → α → Bool) (descends : Bool) (last : α) (rest : List α) :
    (leadingRun.go below descends last rest).1 ++ (leadingRun.go below descends last rest).2 =
      last :: rest := by
  induction rest generalizing last with
  | nil => rfl
  | cons z rest ih =>
    unfold leadingRun.go
    split
    · simp [ih]
    · rfl

/-- A run goes on in the way it has begun. -/
theorem go_chain (below : α → α → Bool) (descends : Bool) (last : α) (rest : List α) :
    ∃ run, (leadingRun.go below descends last rest).1 = last :: run ∧
      List.IsChain (fun a b => below b a = descends) (last :: run) := by
  induction rest generalizing last with
  | nil => exact ⟨[], rfl, .singleton last⟩
  | cons z rest ih =>
    unfold leadingRun.go
    split
    · next hsame =>
      obtain ⟨run, hrun, hchain⟩ := ih z
      refine ⟨z :: run, by simp [hrun], .cons_cons hsame hchain⟩
    · exact ⟨[], rfl, .singleton last⟩

theorem leadingRun_append_perm (items : List α) :
    ((leadingRun below items).1 ++ (leadingRun below items).2).Perm items := by
  match items with
  | [] => exact .refl _
  | [x] => exact .refl _
  | x :: y :: rest =>
    have hall := go_append below (below y x) y rest
    have hrun : (x :: (leadingRun.go below (below y x) y rest).1 ++
        (leadingRun.go below (below y x) y rest).2) = x :: y :: rest := by rw [List.cons_append, hall]
    unfold leadingRun
    dsimp only
    split
    · -- The reversed run has the same items.
      rw [← hrun]
      exact (List.reverse_perm _).append_right _
    · rw [hrun]

theorem leadingRun_rises (h : ComparesBy below rank) (items : List α) :
    Rises rank (leadingRun below items).1 := by
  match items with
  | [] => exact .nil
  | [x] => exact List.pairwise_singleton _ x
  | x :: y :: rest =>
    obtain ⟨run, hrun, hchain⟩ := go_chain below (below y x) y rest
    have hwhole : List.IsChain (fun a b => below b a = below y x) (x :: y :: run) :=
      .cons_cons rfl hchain
    unfold leadingRun
    dsimp only
    rw [hrun]
    cases hdescends : below y x with
    | true =>
      rw [hdescends] at hwhole
      have hfalls : (x :: y :: run).IsChain fun a b => rank b < rank a :=
        hwhole.imp fun a b hab => (h b a).mp hab
      have hpairs := List.isChain_iff_pairwise.mp hfalls
      exact List.pairwise_reverse.mpr (hpairs.imp fun hab => hab.le)
    | false =>
      rw [hdescends] at hwhole
      have hclimbs : (x :: y :: run).IsChain fun a b => rank a ≤ rank b :=
        hwhole.imp fun a b hab => by
          rw [← Bool.not_eq_true, h] at hab
          exact not_lt.mp hab
      exact List.isChain_iff_pairwise.mp hclimbs

section Images
variable {β : Type} {f : β → α}

theorem bisect_map (isAbove : α → Result Bool) (items : List β) (fuel low high : Nat) :
    bisect isAbove (items.map f) fuel low high =
      bisect (fun item => isAbove (f item)) items fuel low high := by
  induction fuel generalizing low high with
  | zero => rfl
  | succ fuel ih =>
    simp only [bisect, List.getElem?_map]
    cases items[(low + high) / 2]? <;> simp [ih]

theorem insertAbove_map (items : List β) (item : β) :
    insertAbove below (items.map f) (f item) =
      (insertAbove (fun a b => below (f a) (f b)) items item).map f := by
  unfold insertAbove upperBound upperBoundBetween
  rw [bisect_map, List.length_map]
  cases bisect (fun other => .ok (below (f item) (f other))) items (items.length - 0) 0 items.length <;>
    simp

theorem go_map (descends : Bool) (last : β) (rest : List β) :
    leadingRun.go below descends (f last) (rest.map f) =
      ((leadingRun.go (fun a b => below (f a) (f b)) descends last rest).1.map f,
        (leadingRun.go (fun a b => below (f a) (f b)) descends last rest).2.map f) := by
  induction rest generalizing last with
  | nil => rfl
  | cons z rest ih =>
    rw [List.map_cons]
    unfold leadingRun.go
    split <;> simp [ih]

theorem leadingRun_map (items : List β) :
    leadingRun below (items.map f) =
      ((leadingRun (fun a b => below (f a) (f b)) items).1.map f,
        (leadingRun (fun a b => below (f a) (f b)) items).2.map f) := by
  match items with
  | [] => rfl
  | [x] => rfl
  | x :: y :: rest =>
    simp only [List.map_cons, leadingRun, go_map]
    split <;> simp

theorem foldl_insertAbove_map (others items : List β) :
    (others.map f).foldl (insertAbove below) (items.map f) =
      (others.foldl (insertAbove fun a b => below (f a) (f b)) items).map f := by
  induction others generalizing items with
  | nil => rfl
  | cons item rest ih => rw [List.map_cons, List.foldl_cons, insertAbove_map, ih, List.foldl_cons]

/-- Images are sorted as the items are by the comparison of their images. -/
theorem insertionSort_map (items : List β) :
    insertionSort below (items.map f) =
      (insertionSort (fun a b => below (f a) (f b)) items).map f := by
  unfold insertionSort
  rw [leadingRun_map]
  exact foldl_insertAbove_map _ _

end Images

/-- Sorting keeps the items and puts them in order. -/
theorem insertionSort_spec (h : ComparesBy below rank) (items : List α) :
    (insertionSort below items).Perm items ∧ Rises rank (insertionSort below items) := by
  obtain ⟨hperm, hrises⟩ :=
    foldl_insertAbove h (leadingRun below items).2 (leadingRun_rises h items)
  exact ⟨hperm.trans (leadingRun_append_perm items), hrises⟩

end MapLayers
