import MapLayers.Proofs.Tables

/-!
# Leaves of prop tables

A table of tables is the list of its leaves: the rules that are no tables, each at the end of a path. What
is found under a prop is what the last leaf writes there that finds a value at its path. So a prop that
only renames write is the last authored value among the paths that lead to it.
-/

namespace MapLayers

namespace PropTable

/-- A rule that is no table, with the path that leads to it. -/
abbrev Leaf := List PropKey × PropRule

namespace Leaf

/-- The leaf as it is seen from one table further out. -/
def below (key : PropKey) (leaf : Leaf) : Leaf := (key :: leaf.1, leaf.2)

/-- What a leaf writes under a prop, if anything. -/
def find (prop : String) (source : Json) (leaf : Leaf) : Option Json :=
  if (selectAt source leaf.1).isNull then none else ruleFinds prop (selectAt source leaf.1) leaf.2

theorem find_null (prop : String) (leaf : Leaf) : leaf.find prop .null = none := by
  rw [find, selectAt_null]
  rfl

end Leaf

mutual

/-- The leaves of a rule, which is one itself if it is no table. -/
def ruleLeaves : PropRule → List Leaf
  | .nested table => leaves table
  | rule => [([], rule)]

/-- The leaves of a table in the order in which they are applied. -/
def leaves : List (PropKey × PropRule) → List Leaf
  | [] => []
  | (key, rule) :: rest => (ruleLeaves rule).map (Leaf.below key) ++ leaves rest

end

/-- What the last leaf that finds anything writes under a prop. -/
def findLast (prop : String) (source : Json) (found : List Leaf) : Option Json :=
  found.reverse.findSome? (Leaf.find prop source)

theorem findLast_append (prop : String) (source : Json) (first second : List Leaf) :
    findLast prop source (first ++ second) =
      (findLast prop source second).or (findLast prop source first) := by
  rw [findLast, List.reverse_append, List.findSome?_append]
  rfl

theorem findLast_below (prop : String) (source : Json) (key : PropKey) (found : List Leaf) :
    findLast prop source (found.map (Leaf.below key)) = findLast prop (select source key) found := by
  rw [findLast, ← List.map_reverse, List.findSome?_map]
  rfl

theorem findSome?_congr {α β : Type} {f g : α → Option β} {xs : List α}
    (h : ∀ x ∈ xs, f x = g x) : xs.findSome? f = xs.findSome? g := by
  induction xs with
  | nil => rfl
  | cons x rest ih =>
    obtain ⟨hx, hrest⟩ := List.forall_mem_cons.mp h
    rw [List.findSome?_cons, List.findSome?_cons, hx, ih hrest]

theorem findLast_null (prop : String) (found : List Leaf) : findLast prop .null found = none := by
  rw [findLast, List.findSome?_eq_none_iff]
  exact fun leaf _ => leaf.find_null prop

mutual

theorem ruleFinds_eq_findLast {prop : String} {value : Json} {rule : PropRule}
    (hnull : value.isNull = false) :
    ruleFinds prop value rule = findLast prop value (ruleLeaves rule) := by
  match rule with
  | .nested table => exact entriesFind_eq_findLast
  | .rename other => simp [findLast, ruleLeaves, Leaf.find, selectAt, hnull]
  | .transform apply => simp [findLast, ruleLeaves, Leaf.find, selectAt, hnull]
  | .invalid found => simp [findLast, ruleLeaves, Leaf.find, selectAt, hnull]

theorem entriesFind_eq_findLast {prop : String} {source : Json} {table : List (PropKey × PropRule)} :
    entriesFind prop source table = findLast prop source (leaves table) := by
  match table with
  | [] => rfl
  | (key, rule) :: rest =>
    rw [entriesFind, leaves, findLast_append, findLast_below, entriesFind_eq_findLast]
    congr 1
    cases hsource : select source key with
    | null => exact (findLast_null prop _).symm
    | _ => exact ruleFinds_eq_findLast rfl

end

mutual

theorem ruleLeaves_not_nested {rule : PropRule} :
    ∀ leaf ∈ ruleLeaves rule, ∀ table, leaf.2 ≠ .nested table := by
  match rule with
  | .nested table => exact leaves_not_nested
  | .rename _ => simp [ruleLeaves]
  | .transform _ => simp [ruleLeaves]
  | .invalid _ => simp [ruleLeaves]

theorem leaves_not_nested {table : List (PropKey × PropRule)} :
    ∀ leaf ∈ leaves table, ∀ inner, leaf.2 ≠ .nested inner := by
  match table with
  | [] => simp [leaves]
  | (key, rule) :: rest =>
    intro leaf hleaf
    rw [leaves, List.mem_append, List.mem_map] at hleaf
    rcases hleaf with ⟨inner, hinner, rfl⟩ | hrest
    · exact ruleLeaves_not_nested inner hinner
    · exact leaves_not_nested leaf hrest

end

def authored? (value : Json) : Option Json := if value.isNull then none else some value

theorem getD_authored? (value : Json) : (authored? value).getD .null = value := by
  cases value <;> rfl

/-- The path of a leaf that renames to the prop. -/
def renamePath? (prop : String) (leaf : Leaf) : Option (List PropKey) :=
  match leaf.2 with
  | .rename other => if other = prop then some leaf.1 else none
  | _ => none

def pathsTo (prop : String) (table : List (PropKey × PropRule)) : List (List PropKey) :=
  (leaves table).filterMap (renamePath? prop)

/-- Every leaf that writes a prop renames to it. -/
def OnlyRenamed (prop : String) (table : List (PropKey × PropRule)) : Prop :=
  ∀ leaf ∈ leaves table, ∀ value, ruleFinds prop value leaf.2 ≠ none → leaf.2 = .rename prop

theorem Leaf.find_eq_of_onlyRenamed {prop : String} {leaf : Leaf}
    (h : ∀ value, ruleFinds prop value leaf.2 ≠ none → leaf.2 = .rename prop) (source : Json) :
    leaf.find prop source =
      (renamePath? prop leaf).bind fun path => authored? (selectAt source path) := by
  by_cases hrename : leaf.2 = .rename prop
  · simp [Leaf.find, renamePath?, authored?, hrename, ruleFinds]
  · have hnone : ∀ value, ruleFinds prop value leaf.2 = none := fun value =>
      Decidable.byContradiction fun hfound => hrename (h value hfound)
    have hpath : renamePath? prop leaf = none := by
      unfold renamePath?
      split
      · next other hother =>
        rw [hother] at hrename
        exact if_neg fun heq => hrename (congrArg PropRule.rename heq)
      · rfl
    simp [Leaf.find, hnone, hpath]

theorem findSome?_eq_of_paths {prop : String} {source : Json} {found : List Leaf}
    (h : ∀ leaf ∈ found, leaf.find prop source =
      (renamePath? prop leaf).bind fun path => authored? (selectAt source path)) :
    found.findSome? (Leaf.find prop source) =
      (found.filterMap (renamePath? prop)).findSome? fun path => authored? (selectAt source path) := by
  induction found with
  | nil => rfl
  | cons leaf rest ih =>
    obtain ⟨hleaf, hrest⟩ := List.forall_mem_cons.mp h
    rw [List.findSome?_cons, List.filterMap_cons, hleaf, ih hrest]
    cases renamePath? prop leaf <;> rfl

theorem entriesFind_of_onlyRenamed {prop : String} {table : List (PropKey × PropRule)}
    (h : OnlyRenamed prop table) (source : Json) :
    entriesFind prop source table =
      (pathsTo prop table).reverse.findSome? fun path => authored? (selectAt source path) := by
  rw [entriesFind_eq_findLast, findLast, pathsTo, ← List.filterMap_reverse]
  apply findSome?_eq_of_paths
  intro leaf hleaf
  exact Leaf.find_eq_of_onlyRenamed (h leaf (List.mem_reverse.mp hleaf)) source

end PropTable

end MapLayers
