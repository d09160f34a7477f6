import Mathlib.Algebra.Order.Field.Rat
import Mathlib.Algebra.Order.Ring.Cast
import Mathlib.Data.List.Induction
import Mathlib.Data.Prod.Lex
import Mathlib.Data.String.Basic
import Mathlib.Data.Sum.Order
import MapLayers.Domain
import MapLayers.Proofs.Sorting
import MapLayers.Proofs.Values

/-!
# Categories of a column

The domain of a categorical scale lists the whole numbers and texts of a column once each. What occurs more
often comes first, and among values that occur equally often numbers come before texts and smaller ones
before larger ones. So the domain depends on how often each value occurs and on nothing else.
-/

namespace MapLayers

/-- A whole number or a text. -/
inductive Category where
  | number (n : Int)
  | name (s : String)
  deriving DecidableEq

namespace Category

def toJson : Category → Json
  | number n => .int n
  | name s => .text s

/-- Numbers stand before texts. -/
def place : Category → Int ⊕ₗ String
  | number n => toLex (.inl n)
  | name s => toLex (.inr s)

theorem toJson_injective : Function.Injective toJson := by
  intro a b h
  cases a <;> cases b <;> simp_all [toJson]

theorem place_injective : Function.Injective place := by
  intro a b h
  cases a <;> cases b <;> simp_all [place]

@[simp] theorem hashable_toJson (c : Category) : c.toJson.hashable = true := by
  cases c <;> rfl

@[simp] theorem isNull_toJson (c : Category) : c.toJson.isNull = false := by
  cases c <;> rfl

@[simp] theorem same_toJson (a b : Category) : a.toJson.same b.toJson = decide (a = b) := by
  cases a <;> cases b <;>
    simp [toJson, Json.same, Json.quantity?, Json.number?, Number.same, Number.position?]

/-- An entry of a tally. -/
def entry (counted : Category × Nat) : Json × Nat := (counted.1.toJson, counted.2)

/-- Each of some categories is counted once, with the number of its occurrences. -/
structure Counts (counts : List (Category × Nat)) (held : List Category) : Prop where
  nodup : (counts.map Prod.fst).Nodup
  mem_iff : ∀ c n, (c, n) ∈ counts ↔ c ∈ held ∧ n = held.count c

variable {counts : List (Category × Nat)} {held : List Category} {c : Category}

theorem Counts.mem_keys (h : Counts counts held) : c ∈ counts.map Prod.fst ↔ c ∈ held := by
  rw [List.mem_map]
  constructor
  · rintro ⟨⟨d, n⟩, hmem, rfl⟩
    exact ((h.mem_iff d n).mp hmem).1
  · exact fun hc => ⟨(c, held.count c), (h.mem_iff c _).mpr ⟨hc, rfl⟩, rfl⟩

theorem addOne_of_new (h : c ∉ counts.map Prod.fst) :
    Tally.addOne c.toJson (counts.map entry) = (counts ++ [(c, 1)]).map entry := by
  induction counts with
  | nil => rfl
  | cons first rest ih =>
    obtain ⟨d, n⟩ := first
    obtain ⟨hne, hrest⟩ : c ≠ d ∧ c ∉ rest.map Prod.fst := by simpa using h
    simp [entry, Tally.addOne, Ne.symm hne, ← ih hrest]

theorem addOne_of_split {before after : List (Category × Nat)} {n : Nat}
    (h : c ∉ before.map Prod.fst) :
    Tally.addOne c.toJson ((before ++ (c, n) :: after).map entry) =
      (before ++ (c, n + 1) :: after).map entry := by
  induction before with
  | nil => simp [entry, Tally.addOne]
  | cons first rest ih =>
    obtain ⟨d, m⟩ := first
    obtain ⟨hne, hrest⟩ : c ≠ d ∧ c ∉ rest.map Prod.fst := by simpa using h
    simp [entry, Tally.addOne, Ne.symm hne, ← ih hrest]

theorem not_mem_of_not_key (h : c ∉ counts.map Prod.fst) (n : Nat) : (c, n) ∉ counts :=
  fun hmem => h (List.mem_map.mpr ⟨_, hmem, rfl⟩)

theorem Counts.addOne_known (h : Counts counts held) (hc : c ∈ held) :
    ∃ next, Tally.addOne c.toJson (counts.map entry) = next.map entry ∧ Counts next (held ++ [c]) := by
  obtain ⟨before, after, rfl⟩ := List.append_of_mem ((h.mem_iff c (held.count c)).mpr ⟨hc, rfl⟩)
  obtain ⟨hbefore, hafter, hothers⟩ : c ∉ before.map Prod.fst ∧ c ∉ after.map Prod.fst ∧
      (before.map Prod.fst ++ after.map Prod.fst).Nodup := by
    have hnodup := h.nodup
    rw [List.map_append, List.map_cons, List.nodup_middle, List.nodup_cons, List.mem_append,
      not_or] at hnodup
    exact ⟨hnodup.1.1, hnodup.1.2, hnodup.2⟩
  refine ⟨_, addOne_of_split hbefore, ⟨?_, fun d m => ?_⟩⟩
  · rw [List.map_append, List.map_cons, List.nodup_middle]
    exact List.nodup_cons.mpr ⟨by simp [hbefore, hafter], hothers⟩
  · by_cases hd : d = c
    · subst d
      simp [not_mem_of_not_key hbefore, not_mem_of_not_key hafter, List.count_append]
    · have hcounted := h.mem_iff d m
      simpa [hd, Ne.symm hd, List.count_append] using hcounted

theorem Counts.addOne_new (h : Counts counts held) (hc : c ∉ held) :
    ∃ next, Tally.addOne c.toJson (counts.map entry) = next.map entry ∧ Counts next (held ++ [c]) := by
  have hnew : c ∉ counts.map Prod.fst := fun hmem => hc (h.mem_keys.mp hmem)
  refine ⟨_, addOne_of_new hnew, ⟨?_, fun d m => ?_⟩⟩
  · rw [List.map_append]
    refine List.nodup_append.mpr ⟨h.nodup, by simp, fun a ha b hb => ?_⟩
    obtain rfl : b = c := by simpa using hb
    rintro rfl
    exact hnew ha
  · by_cases hd : d = c
    · subst d
      have hzero : held.count c = 0 := List.count_eq_zero.mpr hc
      simp [not_mem_of_not_key hnew, List.count_append, hzero]
    · have hcounted := h.mem_iff d m
      simpa [hd, Ne.symm hd, List.count_append] using hcounted

theorem Counts.addOne (h : Counts counts held) (c : Category) :
    ∃ next, Tally.addOne c.toJson (counts.map entry) = next.map entry ∧ Counts next (held ++ [c]) := by
  by_cases hc : c ∈ held
  · exact h.addOne_known hc
  · exact h.addOne_new hc

theorem exists_counts (held : List Category) :
    ∃ counts, Tally.ofList (held.map toJson) = .ok (counts.map entry) ∧ Counts counts held := by
  have hrun : ∀ held : List Category, ∃ counts,
      (held.map toJson).foldl (fun counts value => Tally.addOne value counts) [] =
        counts.map entry ∧ Counts counts held := by
    intro held
    induction held using List.reverseRecOn with
    | nil => exact ⟨[], rfl, by simp, by simp⟩
    | append_singleton held c ih =>
      obtain ⟨counts, hcounts, h⟩ := ih
      obtain ⟨next, hnext, h⟩ := h.addOne c
      exact ⟨next, by rw [List.map_append, List.foldl_append, hcounts, ← hnext]; rfl, h⟩
  obtain ⟨counts, hcounts, h⟩ := hrun held
  refine ⟨counts, ?_, h⟩
  rw [Tally.ofList, if_pos (by simp), hcounts]

/-- What occurs more often comes first, and then what stands before. -/
def rank (counted : Category × Nat) : ℕᵒᵈ ×ₗ (Int ⊕ₗ String) :=
  toLex (.toDual counted.2, counted.1.place)

theorem precedes_entry_iff (a b : Category × Nat) :
    Domain.precedes (entry a) (entry b) = true ↔ rank a < rank b := by
  obtain ⟨a, m⟩ := a
  obtain ⟨b, n⟩ := b
  rw [rank, rank, Prod.Lex.toLex_lt_toLex]
  by_cases hmn : m = n
  · subst n
    cases a <;> cases b <;>
      simp [Domain.precedes, entry, toJson, place, Json.number?, Json.display, Number.less,
        Number.position?, Extended.less]
  · simp only [Domain.precedes, entry, ne_eq, hmn, not_false_eq_true, if_true, OrderDual.toDual_lt_toDual,
      OrderDual.toDual_inj, false_and, or_false]
    exact decide_eq_true_iff

/-- The rank of a category among those that are held. -/
def rankIn (held : List Category) (c : Category) : ℕᵒᵈ ×ₗ (Int ⊕ₗ String) :=
  rank (c, held.count c)

theorem rankIn_injective (held : List Category) : Function.Injective (rankIn held) := by
  intro a b h
  have hplaces : a.place = b.place := congrArg (fun place => (ofLex place).2) h
  exact place_injective hplaces

/-- The categories that are held, once each and by rising rank. -/
structure Lists (listed held : List Category) : Prop where
  mem_iff : ∀ c, c ∈ listed ↔ c ∈ held
  ordered : listed.Pairwise fun a b => rankIn held a < rankIn held b

variable {listed other : List Category}

theorem Lists.nodup (h : Lists listed held) : listed.Nodup :=
  h.ordered.imp fun hlt heq => (ne_of_lt hlt) (congrArg _ heq)

theorem Lists.unique {held' : List Category} (h : Lists listed held) (h' : Lists other held')
    (hperm : held.Perm held') : listed = other := by
  have hrank : rankIn held' = rankIn held := by
    funext c
    rw [rankIn, rankIn, hperm.count_eq]
  have hordered := h'.ordered
  rw [hrank] at hordered
  have hmembers : listed.Perm other := (List.perm_ext_iff_of_nodup h.nodup h'.nodup).mpr fun c => by
    rw [h.mem_iff, h'.mem_iff, hperm.mem_iff]
  exact hmembers.eq_of_pairwise (fun a b _ _ hab hba => absurd hab (lt_asymm hba)) h.ordered hordered

/-- The domain of a column consists of its categories by rank. -/
theorem exists_lists (held : List (Option Category)) :
    ∃ listed, Domain.categories (held.map fun c => c.elim .null toJson) = .ok (listed.map toJson) ∧
      Lists listed (held.filterMap id) := by
  have hheld : (held.map fun c => c.elim .null toJson).filter (fun v => !v.isNull) =
      (held.filterMap id).map toJson := by
    induction held with
    | nil => rfl
    | cons c rest ih =>
      cases c with
      | none => exact ih
      | some c => simpa using ih
  obtain ⟨counts, hcounts, h⟩ := exists_counts (held.filterMap id)
  obtain ⟨hperm, hrises⟩ := insertionSort_spec (fun a b => precedes_entry_iff a b) counts
  refine ⟨(insertionSort (fun a b => Domain.precedes (entry a) (entry b)) counts).map Prod.fst, ?_, ?_⟩
  · rw [Domain.categories, hheld, hcounts, Result.ok_bind, insertionSort_map, List.map_map, List.map_map]
    rfl
  · have hkeys := hperm.map Prod.fst
    refine ⟨fun c => by rw [hkeys.mem_iff, h.mem_keys], ?_⟩
    have hdistinct : (insertionSort (fun a b => Domain.precedes (entry a) (entry b)) counts).Pairwise
        fun a b => a.1 ≠ b.1 := List.pairwise_map.mp (hkeys.nodup_iff.mpr h.nodup)
    have hcounted : ∀ a ∈ insertionSort (fun a b => Domain.precedes (entry a) (entry b)) counts,
        rank a = rankIn (held.filterMap id) a.1 := fun a ha => by
      rw [rankIn, ← ((h.mem_iff a.1 a.2).mp (hperm.mem_iff.mp ha)).2]
    refine List.pairwise_map.mpr ((hrises.and hdistinct).imp_of_mem fun {a b} ha hb hab => ?_)
    rw [hcounted a ha, hcounted b hb] at hab
    exact lt_of_le_of_ne hab.1 fun heq => hab.2 (rankIn_injective _ heq)

end Category

namespace Json

/-- A whole number, a text or null. -/
def isCategory : Json → Bool
  | null | int _ | text _ => true
  | _ => false

def category? : Json → Option Category
  | int n => some (.number n)
  | text s => some (.name s)
  | _ => none

theorem elim_category? {value : Json} (h : value.isCategory = true) :
    value.category?.elim .null Category.toJson = value := by
  cases value <;> simp_all [isCategory, category?, Category.toJson]

theorem category?_eq_some_iff {value : Json} {c : Category} :
    value.category? = some c ↔ value = c.toJson := by
  cases value <;> cases c <;> simp [category?, Category.toJson]

theorem exists_toJson {value : Json} (h : value.isCategory = true) (hvalue : value ≠ .null) :
    ∃ c : Category, value = c.toJson := by
  cases value with
  | int n => exact ⟨.number n, rfl⟩
  | text s => exact ⟨.name s, rfl⟩
  | null => exact absurd rfl hvalue
  | _ => simp [isCategory] at h

/-- Whole numbers in order, before texts in order. -/
inductive Before : Json → Json → Prop
  | numbers {m n : Int} : m < n → Before (int m) (int n)
  | mixed (n : Int) (s : String) : Before (int n) (text s)
  | texts {s t : String} : s < t → Before (text s) (text t)

theorem before_toJson_iff (a b : Category) : Before a.toJson b.toJson ↔ a.place < b.place := by
  cases a with
  | number m =>
    cases b with
    | number n =>
      rw [Category.place, Category.place, Sum.Lex.inl_lt_inl_iff]
      exact ⟨fun | .numbers h => h, .numbers⟩
    | name s => exact iff_of_true (.mixed m s) (Sum.Lex.inl_lt_inr m s)
  | name s =>
    cases b with
    | number n => exact iff_of_false (fun h => nomatch h) Sum.Lex.not_inr_lt_inl
    | name t =>
      rw [Category.place, Category.place, Sum.Lex.inr_lt_inr_iff]
      exact ⟨fun | .texts h => h, .texts⟩

end Json

namespace Domain

/-- How often a value occurs in a column. -/
def occurrences (values : List Json) (value : Json) : Nat := values.countP value.same

/-- The values of a column other than null, once each: those that occur more often first, and among
others numbers before texts, in order. -/
structure ByFrequency (values listed : List Json) : Prop where
  mem_iff : ∀ value, value ∈ listed ↔ value ∈ values ∧ value ≠ .null
  nodup : listed.Nodup
  ordered : listed.Pairwise fun a b => occurrences values b < occurrences values a ∨
    occurrences values a = occurrences values b ∧ a.Before b

theorem map_category? {values : List Json} (h : ∀ value ∈ values, value.isCategory = true) :
    (values.map Json.category?).map (fun c => c.elim .null Category.toJson) = values := by
  rw [List.map_map]
  exact (List.map_congr_left fun value hvalue => Json.elim_category? (h value hvalue)).trans
    (List.map_id values)

theorem occurrences_toJson {values : List Json} (h : ∀ value ∈ values, value.isCategory = true)
    (c : Category) : occurrences values c.toJson = (values.filterMap Json.category?).count c := by
  unfold occurrences
  induction values with
  | nil => rfl
  | cons value rest ih =>
    obtain ⟨hvalue, hrest⟩ := List.forall_mem_cons.mp h
    rw [List.countP_cons, ih hrest]
    by_cases hnull : value = .null
    · subst value
      cases c <;> rfl
    · obtain ⟨d, rfl⟩ := Json.exists_toJson hvalue hnull
      rw [List.filterMap_cons_some (Json.category?_eq_some_iff.mpr rfl), List.count_cons]
      by_cases hc : c = d
      · simp [hc]
      · simp [hc, Ne.symm hc]

/-- The domain of a column of numbers and texts is the same for every order of the column. -/
theorem exists_byFrequency {values : List Json} (h : ∀ value ∈ values, value.isCategory = true) :
    ∃ listed, ByFrequency values listed ∧
      ∀ values' : List Json, values.Perm values' → categories values' = .ok listed := by
  obtain ⟨listed, hlisted, hlists⟩ := Category.exists_lists (values.map Json.category?)
  rw [List.filterMap_map, Function.id_comp] at hlists
  refine ⟨listed.map Category.toJson, ⟨fun value => ?_, ?_, ?_⟩, fun values' hperm => ?_⟩
  · rw [List.mem_map]
    constructor
    · rintro ⟨c, hc, rfl⟩
      obtain ⟨value, hvalue, hcategory⟩ := List.mem_filterMap.mp ((hlists.mem_iff c).mp hc)
      rw [← Json.category?_eq_some_iff.mp hcategory]
      exact ⟨hvalue, fun hnull => by simp [hnull, Json.category?] at hcategory⟩
    · rintro ⟨hvalue, hnull⟩
      obtain ⟨c, rfl⟩ := Json.exists_toJson (h value hvalue) hnull
      refine ⟨c, (hlists.mem_iff c).mpr (List.mem_filterMap.mpr ⟨c.toJson, hvalue, ?_⟩), rfl⟩
      exact Json.category?_eq_some_iff.mpr rfl
  · exact hlists.nodup.map Category.toJson_injective
  · refine List.pairwise_map.mpr (hlists.ordered.imp fun {a b} hab => ?_)
    rw [occurrences_toJson h, occurrences_toJson h, Json.before_toJson_iff]
    simpa only [Category.rankIn, Category.rank, Prod.Lex.toLex_lt_toLex, OrderDual.toDual_lt_toDual,
      OrderDual.toDual_inj] using hab
  · have h' : ∀ value ∈ values', value.isCategory = true := fun value hvalue =>
      h value (hperm.mem_iff.mpr hvalue)
    obtain ⟨other, hother, hlists'⟩ := Category.exists_lists (values'.map Json.category?)
    rw [List.filterMap_map, Function.id_comp] at hlists'
    rw [map_category? h'] at hother
    rw [hother, hlists.unique hlists' (hperm.filterMap _)]

end Domain

end MapLayers
