import MapLayers.Proofs.Entries
import MapLayers.Props.Table

/-!
# What prop tables write

Applying a table without a failure leaves, under every prop, the value that the last matching rule
gives and otherwise what was there before. That value can be read off the table without applying it,
and whatever all rules of two tables keep to, the rules of the merged table keep to as well.
-/

namespace MapLayers.PropTable

mutual

/-- What a rule writes under a prop, if anything. -/
def ruleFinds (prop : String) (value : Json) : PropRule → Option Json
  | .rename other => if other = prop then some value else none
  | .transform apply =>
    match apply value with
    | .ok written => Entries.get? (Entries.ofList written) prop
    | .error _ => none
  | .nested table => entriesFind prop value table
  | .invalid _ => none

/-- What the last matching rule writes under a prop. -/
def entriesFind (prop : String) (source : Json) : List (PropKey × PropRule) → Option Json
  | [] => none
  | (key, rule) :: rest =>
    (entriesFind prop source rest).or
      (if (select source key).isNull then none else ruleFinds prop (select source key) rule)

end

mutual

theorem applyRule_get? {key : PropKey} {value : Json} {target : Json.Fields} {rule : PropRule}
    (h : (applyRule key value target rule).fault = none) (prop : String) :
    Entries.get? (applyRule key value target rule).props prop =
      (ruleFinds prop value rule).or (Entries.get? target prop) := by
  match rule with
  | .rename other =>
    simp only [applyRule, ruleFinds, Entries.get?_set]
    by_cases hprop : other = prop <;> simp [hprop]
  | .transform apply =>
    unfold applyRule ruleFinds at *
    cases happly : apply value with
    | ok written => exact Entries.get?_overlay_ofList target written prop
    | error fault => simp [happly] at h
  | .nested table =>
    simp only [applyRule, ruleFinds] at *
    exact applyEntries_get? h prop
  | .invalid found => simp [applyRule] at h

/-- A table that is applied without a failure writes what can be found in it. -/
theorem applyEntries_get? {source : Json} {target : Json.Fields}
    {table : List (PropKey × PropRule)} (h : (applyEntries source target table).fault = none)
    (prop : String) :
    Entries.get? (applyEntries source target table).props prop =
      (entriesFind prop source table).or (Entries.get? target prop) := by
  match table with
  | [] => rfl
  | (key, rule) :: rest =>
    unfold applyEntries entriesFind at *
    dsimp only at h ⊢
    by_cases hnull : (select source key).isNull = true
    · simp only [if_pos hnull, Option.or_none] at h ⊢
      exact applyEntries_get? h prop
    · simp only [if_neg hnull] at h ⊢
      cases hfault : (applyRule key (select source key) target rule).fault with
      | some fault => simp [hfault] at h
      | none =>
        simp only [hfault] at h ⊢
        rw [applyEntries_get? h, applyRule_get? hfault, Option.or_assoc]

end

mutual

theorem applyRule_distinct {key : PropKey} {value : Json} {target : Json.Fields} {rule : PropRule}
    (h : target.Distinct) : (applyRule key value target rule).props.Distinct := by
  match rule with
  | .rename other => exact h.set other value
  | .transform apply =>
    unfold applyRule
    cases apply value with
    | ok written => exact h.overlay written
    | error fault => exact h
  | .nested table => exact applyEntries_distinct h
  | .invalid found => exact h

theorem applyEntries_distinct {source : Json} {target : Json.Fields}
    {table : List (PropKey × PropRule)} (h : target.Distinct) :
    (applyEntries source target table).props.Distinct := by
  match table with
  | [] => exact h
  | (key, rule) :: rest =>
    unfold applyEntries
    dsimp only
    split
    · exact applyEntries_distinct h
    · split
      · exact applyRule_distinct h
      · exact applyEntries_distinct (applyRule_distinct h)

end

mutual

/-- A rule that writes nothing but what a condition admits. -/
def RuleAdmits (admits : String → Json → Prop) (value : Json) : PropRule → Prop
  | .rename prop => admits prop value
  | .transform apply =>
    ∀ written, apply value = .ok written → ∀ entry ∈ written, admits entry.1 entry.2
  | .nested table => EntriesAdmit admits value table
  | .invalid _ => True

/-- A table all of whose rules write nothing but what a condition admits. -/
def EntriesAdmit (admits : String → Json → Prop) (source : Json) :
    List (PropKey × PropRule) → Prop
  | [] => True
  | (key, rule) :: rest =>
    ((select source key).isNull = false → RuleAdmits admits (select source key) rule) ∧
      EntriesAdmit admits source rest

end

variable {admits : String → Json → Prop} {source : Json}

mutual

/-- A rule that keeps a condition on what it is applied to, with the rules in it if it is a table. -/
def RuleHolds (holds : Json → PropRule → Prop) (value : Json) : PropRule → Prop
  | .nested table => EntriesHold holds value table
  | rule => holds value rule

/-- A table all of whose rules that find a part of the source keep a condition on it. -/
def EntriesHold (holds : Json → PropRule → Prop) (source : Json) :
    List (PropKey × PropRule) → Prop
  | [] => True
  | (key, rule) :: rest =>
    ((select source key).isNull = false → RuleHolds holds (select source key) rule) ∧
      EntriesHold holds source rest

end

theorem ruleAdmits_rename (value : Json) (prop : String) :
    RuleAdmits admits value (.rename prop) ↔ admits prop value := Iff.rfl

theorem ruleAdmits_nested (value : Json) (table : List (PropKey × PropRule)) :
    RuleAdmits admits value (.nested table) ↔ EntriesAdmit admits value table := Iff.rfl

mutual

theorem admits_of_ruleFinds {prop : String} {value found : Json} {rule : PropRule}
    (h : ruleFinds prop value rule = some found) (hrule : RuleAdmits admits value rule) :
    admits prop found := by
  match rule with
  | .rename other =>
    unfold ruleFinds at h
    split at h
    · next hprop =>
      rw [← hprop, ← Option.some.inj h]
      exact hrule
    · simp at h
  | .transform apply =>
    unfold ruleFinds at h
    split at h
    · next written happly =>
      have hreaches : Entries.Reaches admits [] (Entries.ofList written) :=
        Entries.Reaches.start.overlay (hrule written happly)
      exact hreaches.admits_of_get? h
    · simp at h
  | .nested table => exact admits_of_entriesFind h hrule
  | .invalid _ => simp [ruleFinds] at h

theorem admits_of_entriesFind {prop : String} {source found : Json}
    {table : List (PropKey × PropRule)} (h : entriesFind prop source table = some found)
    (htable : EntriesAdmit admits source table) : admits prop found := by
  match table with
  | [] => simp [entriesFind] at h
  | (key, rule) :: rest =>
    obtain ⟨hrule, hrest⟩ := htable
    rw [entriesFind, Option.or_eq_some_iff] at h
    rcases h with hfound | ⟨-, hfound⟩
    · exact admits_of_entriesFind hfound hrest
    · split at hfound
      · simp at hfound
      · next hnull => exact admits_of_ruleFinds hfound (hrule (by simpa using hnull))

end

theorem select_congr {key other : PropKey} (h : key == other) :
    select source key = select source other := by
  cases key <;> cases other <;> cases source <;>
    simp_all [BEq.beq, PropKey.same, PropKey.index?, select]

/-- The rule at the end of a path through nested tables. -/
def ruleAt? (table : List (PropKey × PropRule)) : List PropKey → Option PropRule
  | [] => none
  | [key] => Entries.get? table key
  | key :: rest =>
    match Entries.get? table key with
    | some (.nested inner) => ruleAt? inner rest
    | _ => none

/-- The part of a source at the end of a path. -/
def selectAt (source : Json) (path : List PropKey) : Json := path.foldl select source

theorem selectAt_null (path : List PropKey) : selectAt .null path = .null := by
  induction path with
  | nil => rfl
  | cons key rest ih =>
    have hnull : select .null key = .null := by cases key <;> rfl
    rw [selectAt, List.foldl_cons, hnull]
    exact ih

theorem entriesFind_of_get? {prop : String} {table : List (PropKey × PropRule)} {key : PropKey}
    {rule : PropRule} (h : Entries.get? table key = some rule)
    (hnull : (select source key).isNull = false)
    (hrule : ruleFinds prop (select source key) rule ≠ none) :
    entriesFind prop source table ≠ none := by
  induction table with
  | nil => simp at h
  | cons entry rest ih =>
    obtain ⟨other, found⟩ := entry
    rw [Entries.get?_cons] at h
    rw [entriesFind]
    split at h
    · next hkey =>
      rw [select_congr hkey, hnull, Option.some.inj h]
      simp [hrule]
    · simp [ih h]

theorem entriesFind_of_ruleAt? {prop : String} {table : List (PropKey × PropRule)}
    {path : List PropKey} (h : ruleAt? table path = some (.rename prop))
    (hnull : (selectAt source path).isNull = false) : entriesFind prop source table ≠ none := by
  induction path generalizing source table with
  | nil => simp [ruleAt?] at h
  | cons key rest ih =>
    cases rest with
    | nil => exact entriesFind_of_get? h hnull (by simp [ruleFinds])
    | cons next others =>
      rw [ruleAt?] at h
      split at h
      · next inner hinner =>
        refine entriesFind_of_get? hinner ?_ (ih h hnull)
        cases hsource : select source key with
        | null =>
          rw [selectAt, List.foldl_cons, hsource] at hnull
          rw [show (next :: others).foldl select .null = .null from selectAt_null _] at hnull
          simp [Json.isNull] at hnull
        | _ => rfl
      · simp at h
      · simp

section Merged

variable {holds : Json → PropRule → Prop} {source : Json}

theorem EntriesHold.of_get? {table : List (PropKey × PropRule)} {key : PropKey} {rule : PropRule}
    (h : EntriesHold holds source table) (hfound : Entries.get? table key = some rule) :
    (select source key).isNull = false → RuleHolds holds (select source key) rule := by
  induction table with
  | nil => simp at hfound
  | cons entry rest ih =>
    obtain ⟨other, found⟩ := entry
    obtain ⟨hrule, hrest⟩ := h
    rw [Entries.get?_cons] at hfound
    split at hfound
    · next hkey =>
      rw [← select_congr hkey, ← Option.some.inj hfound]
      exact hrule
    · exact ih hrest hfound

theorem EntriesHold.set {table : List (PropKey × PropRule)} {key : PropKey} {rule : PropRule}
    (h : EntriesHold holds source table)
    (hrule : (select source key).isNull = false → RuleHolds holds (select source key) rule) :
    EntriesHold holds source (Entries.set table key rule) := by
  induction table with
  | nil => exact ⟨hrule, trivial⟩
  | cons entry rest ih =>
    obtain ⟨other, found⟩ := entry
    obtain ⟨hfirst, hrest⟩ := h
    unfold Entries.set
    split
    · next hkey =>
      rw [← select_congr hkey] at hrule
      exact ⟨hrule, hrest⟩
    · exact ⟨hfirst, ih hrest⟩

mutual

theorem combine_holds {value : Json} {current : Option PropRule} {rule : PropRule}
    (hcurrent : ∀ found, current = some found → RuleHolds holds value found)
    (hrule : RuleHolds holds value rule) : RuleHolds holds value (combine current rule) := by
  match rule with
  | .nested extra =>
    unfold combine
    split
    · next base => exact mergeEntries_holds (hcurrent _ rfl) hrule
    · exact hrule
  | .rename _ => exact hrule
  | .transform _ => exact hrule
  | .invalid _ => exact hrule

theorem mergeEntries_holds {source : Json} {base extra : List (PropKey × PropRule)}
    (hbase : EntriesHold holds source base) (hextra : EntriesHold holds source extra) :
    EntriesHold holds source (mergeEntries base extra) := by
  match extra with
  | [] => exact hbase
  | (key, rule) :: rest =>
    obtain ⟨hrule, hrest⟩ := hextra
    unfold mergeEntries
    refine mergeEntries_holds (hbase.set fun hnull => ?_) hrest
    exact combine_holds (fun found hfound => hbase.of_get? hfound hnull) (hrule hnull)

end

end Merged

mutual

theorem ruleAdmits_iff {value : Json} {rule : PropRule} :
    RuleAdmits admits value rule ↔ RuleHolds (RuleAdmits admits) value rule := by
  match rule with
  | .rename _ => exact Iff.rfl
  | .transform _ => exact Iff.rfl
  | .nested table => exact entriesAdmit_iff
  | .invalid _ => exact Iff.rfl

theorem entriesAdmit_iff {source : Json} {table : List (PropKey × PropRule)} :
    EntriesAdmit admits source table ↔ EntriesHold (RuleAdmits admits) source table := by
  match table with
  | [] => exact Iff.rfl
  | (key, rule) :: rest => exact and_congr (imp_congr_right fun _ => ruleAdmits_iff) entriesAdmit_iff

end

theorem mergeEntries_admits {base extra : List (PropKey × PropRule)}
    (hbase : EntriesAdmit admits source base) (hextra : EntriesAdmit admits source extra) :
    EntriesAdmit admits source (mergeEntries base extra) :=
  entriesAdmit_iff.mpr (mergeEntries_holds (entriesAdmit_iff.mp hbase) (entriesAdmit_iff.mp hextra))

end MapLayers.PropTable
