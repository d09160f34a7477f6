import MapLayers.Proofs.TableLeaves

/-!
# Targets of prop tables

A table never looks at what it writes into. Whatever the target holds, applying a table lays over it what
the table writes where nothing is, and stops at the same failure with the same props written. So props
that no rule writes stay as they are, and a second application of the same table changes nothing.
-/

namespace MapLayers

namespace PropTable

variable {source : Json} {target : Json.Fields}

namespace Outcome

/-- The same outcome with its props laid over those of a target. -/
def laidOver (o : Outcome) (target : Json.Fields) : Outcome :=
  ⟨Entries.overlay target o.props, o.fault⟩

@[simp] theorem laidOver_fault (o : Outcome) (target : Json.Fields) :
    (o.laidOver target).fault = o.fault := rfl

end Outcome

mutual

theorem applyRule_laidOver {key : PropKey} {value : Json} {written : Json.Fields} {rule : PropRule}
    (h : written.Distinct) (target : Json.Fields) :
    applyRule key value (Entries.overlay target written) rule =
      (applyRule key value written rule).laidOver target := by
  match rule with
  | .rename prop =>
    simp only [applyRule, Outcome.laidOver, Entries.overlay_set target h]
  | .transform apply =>
    unfold applyRule
    cases apply value with
    | ok props => simp only [Outcome.laidOver, Entries.overlay_overlay target h]
    | error fault => rfl
  | .nested table => exact applyEntries_laidOver h target
  | .invalid found => rfl

theorem applyEntries_laidOver {source : Json} {written : Json.Fields}
    {table : List (PropKey × PropRule)} (h : written.Distinct) (target : Json.Fields) :
    applyEntries source (Entries.overlay target written) table =
      (applyEntries source written table).laidOver target := by
  match table with
  | [] => rfl
  | (key, rule) :: rest =>
    unfold applyEntries
    dsimp only
    rw [applyRule_laidOver h target, Outcome.laidOver_fault]
    split
    · exact applyEntries_laidOver h target
    · split
      · rfl
      · exact applyEntries_laidOver (applyRule_distinct h) target

end

theorem apply_eq_laidOver (table : PropTable) (source : Json) (target : Json.Fields) :
    table.apply source target = (table.apply source []).laidOver target :=
  applyEntries_laidOver .nil target

theorem apply_distinct (table : PropTable) (source : Json) :
    (table.apply source []).props.Distinct :=
  applyEntries_distinct .nil

mutual

theorem applyRule_get?_of_unwritten {key : PropKey} {value : Json} {rule : PropRule} {prop : String}
    (h : ∀ leaf ∈ ruleLeaves rule, ∀ value, ruleFinds prop value leaf.2 = none)
    (target : Json.Fields) :
    Entries.get? (applyRule key value target rule).props prop = Entries.get? target prop := by
  match rule with
  | .nested table => exact applyEntries_get?_of_unwritten h target
  | .rename other =>
    have hfinds := h _ List.mem_cons_self value
    have hother : other ≠ prop := by
      rintro rfl
      simp [ruleFinds] at hfinds
    exact Entries.get?_set_of_ne target value hother
  | .transform apply =>
    have hfinds := h _ List.mem_cons_self value
    unfold ruleFinds at hfinds
    unfold applyRule
    cases happly : apply value with
    | ok written =>
      have hnone : Entries.get? (Entries.ofList written) prop = none := by simpa [happly] using hfinds
      rw [Entries.get?_overlay_ofList, hnone, Option.none_or]
    | error fault => rfl
  | .invalid found => rfl

theorem applyEntries_get?_of_unwritten {source : Json} {table : List (PropKey × PropRule)}
    {prop : String} (h : ∀ leaf ∈ leaves table, ∀ value, ruleFinds prop value leaf.2 = none)
    (target : Json.Fields) :
    Entries.get? (applyEntries source target table).props prop = Entries.get? target prop := by
  match table with
  | [] => rfl
  | (key, rule) :: rest =>
    have hrest : ∀ leaf ∈ leaves rest, ∀ value, ruleFinds prop value leaf.2 = none :=
      fun leaf hleaf => h leaf (List.mem_append_right _ hleaf)
    have hrule : ∀ leaf ∈ ruleLeaves rule, ∀ value, ruleFinds prop value leaf.2 = none :=
      fun leaf hleaf => h (leaf.below key) (List.mem_append_left _ (List.mem_map_of_mem hleaf))
    unfold applyEntries
    dsimp only
    split
    · exact applyEntries_get?_of_unwritten hrest target
    · split
      · exact applyRule_get?_of_unwritten hrule target
      · rw [applyEntries_get?_of_unwritten hrest, applyRule_get?_of_unwritten hrule]

end

/-- How an application to a target stands to the application of the same table where nothing is. -/
structure WritesOver (table : PropTable) (source : Json) (target : Json.Fields)
    (fresh left : Outcome) : Prop where
  fault : left.fault = fresh.fault
  props : left.props = Entries.overlay target fresh.props
  keys : left.props.keys =
    target.keys ++ fresh.props.keys.filter fun prop => !target.has prop
  values : ∀ prop, left.props.get? prop = (fresh.props.get? prop).or (target.get? prop)
  kept : ∀ prop, (∀ leaf ∈ leaves table, ∀ value, ruleFinds prop value leaf.2 = none) →
    left.props.get? prop = target.get? prop
  again : table.apply source left.props = left

/-- A table writes the same whatever the target holds: the target is overlaid with what the table writes
where nothing is, up to the same failure, and writing it once more changes nothing. -/
theorem apply_writesOver (table : PropTable) (source : Json) (target : Json.Fields) :
    WritesOver table source target (table.apply source []) (table.apply source target) := by
  have hdistinct := apply_distinct table source
  have happly := apply_eq_laidOver table source target
  refine ⟨?_, ?_, ?_, fun prop => ?_, fun prop h => ?_, ?_⟩
  · rw [happly, Outcome.laidOver_fault]
  · rw [happly, Outcome.laidOver]
  · rw [happly, Outcome.laidOver, Entries.keys_overlay target hdistinct]
  · rw [happly, Outcome.laidOver, Entries.get?_overlay target hdistinct]
  · exact applyEntries_get?_of_unwritten h target
  · rw [apply_eq_laidOver table source (table.apply source target).props, happly, Outcome.laidOver,
      Outcome.laidOver, ← Entries.overlay_overlay target hdistinct, Entries.overlay_self hdistinct]

/-- An invalid rule leaves the props before it written, and those after it not. -/
example (found : Json) (target : Json.Fields) :
    apply [(.field "a", .rename "p"), (.field "b", .invalid found), (.field "c", .rename "q")]
        (.object [("a", .int 1), ("b", .int 2), ("c", .int 3)]) target =
      ⟨Entries.set target "p" (.int 1), some (.unknownRule "b" found.literal)⟩ := rfl

end PropTable

end MapLayers
