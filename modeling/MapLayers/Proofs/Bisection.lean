import MapLayers.Proofs.Results
import MapLayers.Search

/-!
# Where a bisection ends

A test that, once it holds of an item, holds of all the later ones divides a list in two. A bisection keeps
the border inside its window, and as the window becomes empty it ends there. On a list in any order it ends
where the test changes from one item to the next, and no earlier than a bisection whose test holds of more.
-/

namespace MapLayers

variable {α : Type} {isAbove : α → Bool} {items : List α}

/-- Once the test holds of an item it holds of the later ones. -/
def Ascends (isAbove : α → Bool) (items : List α) : Prop :=
  items.Pairwise fun a b => isAbove a = true → isAbove b = true

/-- The test holds of no item before the window and of every item behind it. -/
structure Window (isAbove : α → Bool) (items : List α) (low high : Nat) : Prop where
  order : low ≤ high
  bound : high ≤ items.length
  before : ∀ item ∈ items.take low, isAbove item = false
  behind : ∀ item ∈ items.drop high, isAbove item = true

theorem Window.whole (isAbove : α → Bool) (items : List α) :
    Window isAbove items 0 items.length :=
  ⟨Nat.zero_le _, Nat.le_refl _, by simp, by simp⟩

variable {low high mid : Nat} {item : α}

/-- Where the test holds of an item in the window, it holds from there on. -/
theorem Window.cut_high (h : Window isAbove items low high) (hascends : Ascends isAbove items)
    (hlow : low ≤ mid) (hmid : items[mid]? = some item) (habove : isAbove item = true) :
    Window isAbove items low mid := by
  obtain ⟨hlt, hitem⟩ := List.getElem?_eq_some_iff.mp hmid
  refine ⟨hlow, Nat.le_of_lt hlt, h.before, ?_⟩
  have hfrom : items.drop mid = item :: items.drop (mid + 1) := by
    rw [List.drop_eq_getElem_cons hlt, hitem]
  have hlater : (item :: items.drop (mid + 1)).Pairwise fun a b =>
      isAbove a = true → isAbove b = true := hfrom ▸ hascends.sublist (List.drop_sublist mid items)
  intro other hother
  rw [hfrom] at hother
  rcases List.mem_cons.mp hother with rfl | hother
  · exact habove
  · exact (List.pairwise_cons.mp hlater).1 other hother habove

theorem Window.cut_low (h : Window isAbove items low high) (hascends : Ascends isAbove items)
    (hhigh : mid < high) (hmid : items[mid]? = some item) (hbelow : isAbove item = false) :
    Window isAbove items (mid + 1) high := by
  refine ⟨hhigh, h.bound, ?_, h.behind⟩
  have hupto : items.take (mid + 1) = items.take mid ++ [item] := by
    rw [List.take_add_one, hmid]
    rfl
  have hearlier : (items.take mid ++ [item]).Pairwise fun a b =>
      isAbove a = true → isAbove b = true := hupto ▸ hascends.sublist (List.take_sublist _ items)
  intro other hother
  rw [hupto] at hother
  rcases List.mem_append.mp hother with hother | hother
  · refine Bool.eq_false_iff.mpr fun habove => ?_
    have := (List.pairwise_append.mp hearlier).2.2 other hother item (by simp) habove
    simp [hbelow] at this
  · rw [List.mem_singleton.mp hother, hbelow]

/-- Bisecting a window with enough halvings ends where the test begins to hold. -/
theorem bisect_window (hascends : Ascends isAbove items) {fuel : Nat} (hfuel : high - low ≤ fuel)
    (h : Window isAbove items low high) :
    ∃ place, bisect (fun item => .ok (isAbove item)) items fuel low high = .ok place ∧
      Window isAbove items place place := by
  induction fuel generalizing low high with
  | zero =>
    obtain rfl : low = high := Nat.le_antisymm h.order (by omega)
    exact ⟨low, rfl, h⟩
  | succ fuel ih =>
    unfold bisect
    by_cases hlt : low < high
    · have hmid : (low + high) / 2 < items.length := by have := h.bound; omega
      have hfound : items[(low + high) / 2]? = some items[(low + high) / 2] :=
        List.getElem?_eq_getElem hmid
      simp only [hlt, if_true, hfound, Result.ok_bind]
      cases habove : isAbove items[(low + high) / 2] with
      | true => exact ih (by omega) (h.cut_high hascends (by omega) hfound habove)
      | false => exact ih (by omega) (h.cut_low hascends (by omega) hfound habove)
    · obtain rfl : low = high := Nat.le_antisymm h.order (by omega)
      exact ⟨low, by simp, h⟩

theorem upperBound_window (hascends : Ascends isAbove items) :
    ∃ place, upperBound (fun item => .ok (isAbove item)) items = .ok place ∧
      Window isAbove items place place :=
  bisect_window hascends (Nat.le_refl _) (.whole isAbove items)

theorem Window.countP_eq {place : Nat} (h : Window isAbove items place place) :
    items.countP (fun item => !isAbove item) = place := by
  have hbefore : (items.take place).countP (fun item => !isAbove item) = (items.take place).length :=
    List.countP_eq_length.mpr fun item hitem => by simp [h.before item hitem]
  have hbehind : (items.drop place).countP (fun item => !isAbove item) = 0 :=
    List.countP_eq_zero.mpr fun item hitem => by simp [h.behind item hitem]
  have hparts : items.countP (fun item => !isAbove item) =
      (items.take place ++ items.drop place).countP fun item => !isAbove item := by
    rw [List.take_append_drop]
  rw [hparts, List.countP_append, hbefore, hbehind, List.length_take, Nat.min_eq_left h.bound, Nat.add_zero]

/-- Whatever the order of the list, a bisection ends between an item on which the test does not hold and
one on which it does, unless it ends at a bound of its window. -/
structure Border (isAbove : α → Bool) (items : List α) (low high place : Nat) : Prop where
  low_le : low ≤ place
  le_high : place ≤ high
  before : place = low ∨ ∃ item, items[place - 1]? = some item ∧ isAbove item = false
  behind : place = high ∨ ∃ item, items[place]? = some item ∧ isAbove item = true

theorem bisect_border {fuel : Nat} (hfuel : high - low ≤ fuel) (horder : low ≤ high)
    (hbound : high ≤ items.length) :
    ∃ place, bisect (fun item => .ok (isAbove item)) items fuel low high = .ok place ∧
      Border isAbove items low high place := by
  induction fuel generalizing low high with
  | zero =>
    obtain rfl : low = high := Nat.le_antisymm horder (by omega)
    exact ⟨low, rfl, ⟨Nat.le_refl _, Nat.le_refl _, .inl rfl, .inl rfl⟩⟩
  | succ fuel ih =>
    unfold bisect
    by_cases hlt : low < high
    · have hmid : (low + high) / 2 < items.length := by omega
      have hfound : items[(low + high) / 2]? = some items[(low + high) / 2] :=
        List.getElem?_eq_getElem hmid
      simp only [hlt, if_true, hfound, Result.ok_bind]
      cases habove : isAbove items[(low + high) / 2] with
      | true =>
        obtain ⟨place, hplace, hborder⟩ := @ih low ((low + high) / 2) (by omega)
          (by omega) (by omega)
        refine ⟨place, hplace, hborder.low_le, by have := hborder.le_high; omega, hborder.before, .inr ?_⟩
        rcases hborder.behind with rfl | hbehind
        · exact ⟨_, hfound, habove⟩
        · exact hbehind
      | false =>
        obtain ⟨place, hplace, hborder⟩ := @ih ((low + high) / 2 + 1) high (by omega)
          (by omega) hbound
        refine ⟨place, hplace, by have := hborder.low_le; omega, hborder.le_high, .inr ?_, hborder.behind⟩
        rcases hborder.before with rfl | hbefore
        · exact ⟨_, hfound, habove⟩
        · exact hbefore
    · obtain rfl : low = high := Nat.le_antisymm horder (by omega)
      exact ⟨low, by simp, ⟨Nat.le_refl _, Nat.le_refl _, .inl rfl, .inl rfl⟩⟩

theorem bisect_bounds {test : α → Result Bool} {fuel place : Nat} (horder : low ≤ high)
    (h : bisect test items fuel low high = .ok place) : low ≤ place ∧ place ≤ high := by
  induction fuel generalizing low high with
  | zero =>
    obtain rfl : low = place := Except.ok.inj h
    exact ⟨Nat.le_refl _, horder⟩
  | succ fuel ih =>
    unfold bisect at h
    dsimp only at h
    split at h
    · next hlt =>
      split at h
      · obtain rfl : low = place := Except.ok.inj h
        exact ⟨Nat.le_refl _, horder⟩
      · obtain ⟨above, -, h⟩ := Result.bind_eq_ok_iff.mp h
        split at h
        · obtain ⟨hlow, hhigh⟩ := ih (by omega) h
          exact ⟨hlow, by omega⟩
        · obtain ⟨hlow, hhigh⟩ := ih (by omega) h
          exact ⟨by omega, hhigh⟩
    · obtain rfl : low = place := Except.ok.inj h
      exact ⟨Nat.le_refl _, horder⟩

theorem upperBound_le {test : α → Result Bool} {place : Nat} (h : upperBound test items = .ok place) :
    place ≤ items.length :=
  (bisect_bounds (Nat.zero_le _) h).2

/-- Two bisections take the same steps until an item tells their tests apart. If the second test holds only
where the first one does, the first bisection goes below that item and the second one above it. -/
theorem bisect_mono {first second : α → Result Bool}
    (himp : ∀ item ∈ items, second item = .ok true → first item ≠ .ok false)
    {fuel i j : Nat} (horder : low ≤ high) (hfirst : bisect first items fuel low high = .ok i)
    (hsecond : bisect second items fuel low high = .ok j) : i ≤ j := by
  induction fuel generalizing low high with
  | zero =>
    obtain rfl : low = i := Except.ok.inj hfirst
    exact (bisect_bounds horder hsecond).1
  | succ fuel ih =>
    unfold bisect at hfirst hsecond
    dsimp only at hfirst hsecond
    split at hfirst
    · next hlt =>
      rw [if_pos hlt] at hsecond
      split at hfirst
      · next hnone =>
        rw [hnone] at hsecond
        exact Nat.le_of_eq (Except.ok.inj (hfirst.symm.trans hsecond))
      · next item hitem =>
        rw [hitem] at hsecond
        obtain ⟨below, hbelow, hfirst⟩ := Result.bind_eq_ok_iff.mp hfirst
        obtain ⟨above, habove, hsecond⟩ := Result.bind_eq_ok_iff.mp hsecond
        have hthere := himp item (List.mem_of_getElem? hitem)
        cases below <;> cases above
        · exact ih (by omega) hfirst hsecond
        · exact absurd hbelow (hthere habove)
        · have := (bisect_bounds (by omega) hfirst).2
          have := (bisect_bounds (by omega) hsecond).1
          omega
        · exact ih (by omega) hfirst hsecond
    · next hempty =>
      rw [if_neg hempty] at hsecond
      exact Nat.le_of_eq (Except.ok.inj (hfirst.symm.trans hsecond))

theorem upperBound_mono {first second : α → Result Bool}
    (himp : ∀ item ∈ items, second item = .ok true → first item ≠ .ok false) {i j : Nat}
    (hfirst : upperBound first items = .ok i) (hsecond : upperBound second items = .ok j) : i ≤ j :=
  bisect_mono himp (Nat.zero_le _) hfirst hsecond

theorem bisect_failsOnly {test : α → Result Bool} {p : Fault → Prop}
    (h : ∀ item ∈ items, Result.FailsOnly p (test item)) (fuel low high : Nat) :
    Result.FailsOnly p (bisect test items fuel low high) := by
  induction fuel generalizing low high with
  | zero => simp [bisect]
  | succ fuel ih =>
    unfold bisect
    dsimp only
    split
    · split
      · simp
      · next item hitem => simp [h item (List.mem_of_getElem? hitem), ih]
    · simp

theorem upperBound_failsOnly {test : α → Result Bool} {p : Fault → Prop}
    (h : ∀ item ∈ items, Result.FailsOnly p (test item)) :
    Result.FailsOnly p (upperBound test items) :=
  bisect_failsOnly h _ _ _

theorem upperBound_pair (test : α → Result Bool) (a b : α) :
    upperBound test [a, b] = do
      if ← test b then
        if ← test a then return 0 else return 1
      else return 2 := by
  simp only [upperBound, upperBoundBetween, bisect, List.length_cons, List.length_nil, Nat.reduceAdd,
    Nat.reduceDiv, Nat.reduceSub, Nat.reduceLT, List.getElem?_cons_succ, List.getElem?_cons_zero, if_true]
  rfl

end MapLayers
