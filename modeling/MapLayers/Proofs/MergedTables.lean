import MapLayers.LayerType
import MapLayers.Proofs.Tables

/-!
# Merged tables

Merging loses and invents no rule: a leaf of the merged table is one of the second table or one of the
first table that the second leaves room for. The keys of the first table keep their places at every level
that both have, and the new ones follow. So the empty table is neutral, a table merged with itself stays
as it is, and three tables that agree on what is nested can be merged in either order.
-/

namespace MapLayers

def PropRule.isNested : PropRule → Bool
  | nested _ => true
  | _ => false

namespace PropTable

mutual

/-- A rule all of whose tables have one rule per key. -/
def ruleKeyed : PropRule → Bool
  | .nested table => keyed table
  | _ => true

/-- Whether a table has one rule per key at every level. -/
def keyed : List (PropKey × PropRule) → Bool
  | [] => true
  | (key, rule) :: rest => !Entries.has rest key && ruleKeyed rule && keyed rest

end

variable {table : List (PropKey × PropRule)} {key : PropKey} {rule : PropRule}
  {rest : List (PropKey × PropRule)}

theorem keyed_cons : keyed ((key, rule) :: rest) = true ↔
    Entries.get? rest key = none ∧ ruleKeyed rule = true ∧ keyed rest = true := by
  simp [keyed, Entries.has, and_assoc]

theorem get?_of_mem (h : keyed table = true) (hmem : (key, rule) ∈ table) :
    Entries.get? table key = some rule := by
  induction table with
  | nil => simp at hmem
  | cons entry rest ih =>
    obtain ⟨other, found⟩ := entry
    obtain ⟨hnot, -, hrest⟩ := keyed_cons.mp h
    rcases List.mem_cons.mp hmem with hfirst | hmem
    · obtain ⟨rfl, rfl⟩ := Prod.mk.inj hfirst
      rw [Entries.get?_cons, if_pos BEq.rfl]
    · have hrule := ih hrest hmem
      rw [Entries.get?_cons, if_neg ?_, hrule]
      intro hsame
      rw [Entries.get?_congr rest hsame, hrule] at hnot
      simp at hnot

theorem ruleKeyed_of_get? (h : keyed table = true) (hrule : Entries.get? table key = some rule) :
    ruleKeyed rule = true := by
  induction table with
  | nil => simp at hrule
  | cons entry rest ih =>
    obtain ⟨-, hfirst, hrest⟩ := keyed_cons.mp h
    rw [Entries.get?_cons] at hrule
    split at hrule
    · exact Option.some.inj hrule ▸ hfirst
    · exact ih hrest hrule

/-- Keyed tables with the same keys in the same order and the same rules are the same. -/
theorem ext_keyed {other : List (PropKey × PropRule)} (h : keyed table = true)
    (hother : keyed other = true) (hkeys : Entries.keys table = Entries.keys other)
    (hget : ∀ key, Entries.get? table key = Entries.get? other key) : table = other := by
  induction table generalizing other with
  | nil => exact (List.map_eq_nil_iff.mp hkeys.symm).symm
  | cons entry rest ih =>
    obtain ⟨key, rule⟩ := entry
    cases other with
    | nil => simp [Entries.keys] at hkeys
    | cons entry others =>
      obtain ⟨key', rule'⟩ := entry
      obtain ⟨rfl, htailKeys⟩ : key = key' ∧ Entries.keys rest = Entries.keys others := by
        simpa [Entries.keys] using hkeys
      obtain ⟨hnot, -, hrest⟩ := keyed_cons.mp h
      obtain ⟨hnot', -, hothers⟩ := keyed_cons.mp hother
      have hrule : rule = rule' := by simpa [Entries.get?_cons] using hget key
      have htails : rest = others := by
        refine ih hrest hothers htailKeys fun found => ?_
        by_cases hsame : key == found
        · rw [← Entries.get?_congr rest hsame, ← Entries.get?_congr others hsame, hnot, hnot']
        · simpa [Entries.get?_cons, hsame] using hget found
      rw [hrule, htails]

@[simp] theorem combine_none (rule : PropRule) : combine none rule = rule := by
  cases rule <;> simp [combine]

theorem combine_leaf (h : rule.isNested = false) (current : Option PropRule) :
    combine current rule = rule := by
  cases rule with
  | nested table => simp [PropRule.isNested] at h
  | _ => rfl

theorem isNested_combine (current : Option PropRule) (rule : PropRule) :
    (combine current rule).isNested = rule.isNested := by
  cases rule with
  | nested table =>
    unfold combine
    split <;> rfl
  | _ => rfl

variable {base extra : List (PropKey × PropRule)}

theorem mergeEntries_cons (base : List (PropKey × PropRule)) (key : PropKey) (rule : PropRule)
    (rest : List (PropKey × PropRule)) : mergeEntries base ((key, rule) :: rest) =
      mergeEntries (Entries.set base key (combine (Entries.get? base key) rule)) rest := rfl

theorem get?_merge (h : keyed extra = true) (base : List (PropKey × PropRule)) (key : PropKey) :
    Entries.get? (mergeEntries base extra) key =
      ((Entries.get? extra key).map (combine (Entries.get? base key))).or (Entries.get? base key) := by
  induction extra generalizing base with
  | nil => rfl
  | cons entry rest ih =>
    obtain ⟨other, rule⟩ := entry
    obtain ⟨hnot, -, hrest⟩ := keyed_cons.mp h
    rw [mergeEntries_cons, ih hrest, Entries.get?_set, Entries.get?_cons]
    by_cases hsame : other == key
    · rw [← Entries.get?_congr rest hsame, hnot, if_pos hsame, if_pos hsame,
        Entries.get?_congr base hsame]
      rfl
    · rw [if_neg hsame, if_neg hsame]

theorem has_merge (h : keyed extra = true) (base : List (PropKey × PropRule)) (key : PropKey) :
    Entries.has (mergeEntries base extra) key = (Entries.has base key || Entries.has extra key) := by
  simp only [Entries.has, get?_merge h]
  cases Entries.get? extra key <;> simp

/-- The keys of the first table keep their places, and the new ones follow in their order. -/
theorem keys_merge (h : keyed extra = true) (base : List (PropKey × PropRule)) :
    Entries.keys (mergeEntries base extra) =
      Entries.keys base ++ (Entries.keys extra).filter fun key => !Entries.has base key := by
  induction extra generalizing base with
  | nil => simp [mergeEntries, Entries.keys]
  | cons entry rest ih =>
    obtain ⟨key, rule⟩ := entry
    obtain ⟨hnot, -, hrest⟩ := keyed_cons.mp h
    rw [mergeEntries_cons, ih hrest]
    refine Entries.keys_set_append base _ fun other hother => ?_
    rw [Bool.eq_false_iff]
    intro hsame
    obtain ⟨⟨_, found⟩, hmem, rfl⟩ := List.mem_map.mp hother
    rw [Entries.get?_congr rest hsame, get?_of_mem hrest hmem] at hnot
    simp at hnot

theorem keyed_set (h : keyed table = true) (hrule : ruleKeyed rule = true) (key : PropKey) :
    keyed (Entries.set table key rule) = true := by
  induction table with
  | nil => simp [Entries.set, keyed, Entries.has, hrule]
  | cons entry rest ih =>
    obtain ⟨other, found⟩ := entry
    obtain ⟨hnot, hfound, hrest⟩ := keyed_cons.mp h
    unfold Entries.set
    split
    · exact keyed_cons.mpr ⟨hnot, hrule, hrest⟩
    · next hother =>
      refine keyed_cons.mpr ⟨?_, hfound, ih hrest⟩
      rw [Entries.get?_set, if_neg ?_, hnot]
      exact fun hsame => hother (BEq.symm hsame)

mutual

theorem ruleKeyed_combine {current : Option PropRule} {rule : PropRule}
    (hcurrent : ∀ found, current = some found → ruleKeyed found = true)
    (hrule : ruleKeyed rule = true) : ruleKeyed (combine current rule) = true := by
  match rule with
  | .nested extra =>
    unfold combine
    split
    · next base => exact keyed_merge (hcurrent _ rfl) hrule
    · exact hrule
  | .rename _ => rfl
  | .transform _ => rfl
  | .invalid _ => rfl

theorem keyed_merge {base extra : List (PropKey × PropRule)} (hbase : keyed base = true)
    (hextra : keyed extra = true) : keyed (mergeEntries base extra) = true := by
  match extra with
  | [] => exact hbase
  | (key, rule) :: rest =>
    obtain ⟨-, hrule, hrest⟩ := keyed_cons.mp hextra
    have hcombined : ruleKeyed (combine (Entries.get? base key) rule) = true :=
      ruleKeyed_combine (fun found hfound => ruleKeyed_of_get? hbase hfound) hrule
    rw [mergeEntries_cons]
    exact keyed_merge (keyed_set hbase hcombined key) hrest

end

theorem nil_merge (h : keyed table = true) : mergeEntries [] table = table := by
  refine ext_keyed (keyed_merge rfl h) h ?_ fun key => ?_
  · rw [keys_merge h]
    simp [Entries.keys, Entries.has]
  · rw [get?_merge h]
    cases hget : Entries.get? table key <;> simp

mutual

theorem combine_self {rule : PropRule} (h : ruleKeyed rule = true) :
    combine (some rule) rule = rule := by
  match rule with
  | .nested table =>
    have hsame : mergeEntries table table = table := merge_there h fun entry => get?_of_mem h
    simp only [combine, hsame]
  | .rename _ => rfl
  | .transform _ => rfl
  | .invalid _ => rfl

theorem merge_there {base extra : List (PropKey × PropRule)} (h : keyed extra = true)
    (hthere : ∀ entry ∈ extra, Entries.get? base entry.1 = some entry.2) :
    mergeEntries base extra = base := by
  match extra with
  | [] => rfl
  | (key, rule) :: rest =>
    obtain ⟨-, hrule, hrest⟩ := keyed_cons.mp h
    obtain ⟨hfirst, hothers⟩ := List.forall_mem_cons.mp hthere
    rw [mergeEntries_cons, hfirst, combine_self hrule, Entries.set_eq_self hfirst]
    exact merge_there hrest hothers

end

theorem merge_self (h : keyed table = true) : mergeEntries table table = table :=
  merge_there h fun _ => get?_of_mem h

/-- The rule at the end of a path, if it is no table. -/
def leafAt? (table : List (PropKey × PropRule)) (path : List PropKey) : Option PropRule :=
  (ruleAt? table path).filter fun rule => !rule.isNested

/-- The table at the end of a path. -/
def tableAt? (table : List (PropKey × PropRule)) : List PropKey → Option (List (PropKey × PropRule))
  | [] => some table
  | key :: rest =>
    match Entries.get? table key with
    | some (.nested inner) => tableAt? inner rest
    | _ => none

/-- The table under a key; there is nothing in it if the key has none. -/
def inner (table : List (PropKey × PropRule)) (key : PropKey) : List (PropKey × PropRule) :=
  match Entries.get? table key with
  | some (.nested inner) => inner
  | _ => []

theorem ruleAt?_nil (path : List PropKey) : ruleAt? [] path = none := by
  match path with
  | [] => rfl
  | [_] => rfl
  | _ :: _ :: _ => rfl

theorem ruleAt?_cons (table : List (PropKey × PropRule)) (key next : PropKey)
    (rest : List PropKey) :
    ruleAt? table (key :: next :: rest) = ruleAt? (inner table key) (next :: rest) := by
  unfold inner
  cases hget : Entries.get? table key with
  | none => simp [ruleAt?, hget, ruleAt?_nil]
  | some rule => cases rule <;> simp [ruleAt?, hget, ruleAt?_nil]

theorem leafAt?_singleton (table : List (PropKey × PropRule)) (key : PropKey) :
    leafAt? table [key] = (Entries.get? table key).filter fun rule => !rule.isNested := rfl

theorem leafAt?_cons (table : List (PropKey × PropRule)) (key next : PropKey)
    (rest : List PropKey) :
    leafAt? table (key :: next :: rest) = leafAt? (inner table key) (next :: rest) := by
  rw [leafAt?, ruleAt?_cons]
  rfl

theorem keyed_inner (h : keyed table = true) (key : PropKey) : keyed (inner table key) = true := by
  unfold inner
  split
  · next hget => exact ruleKeyed_of_get? h hget
  · rfl

/-- Where the second table has no leaf, the tables under a key are merged. -/
theorem inner_merge (h : keyed extra = true) (base : List (PropKey × PropRule)) {key : PropKey}
    (hleaf : leafAt? extra [key] = none) :
    inner (mergeEntries base extra) key = mergeEntries (inner base key) (inner extra key) := by
  have hinner := keyed_inner h key
  rw [leafAt?_singleton] at hleaf
  unfold inner at hinner ⊢
  rw [get?_merge h]
  cases hextra : Entries.get? extra key with
  | none => rfl
  | some rule =>
    cases rule with
    | nested added =>
      rw [hextra] at hinner
      cases hbase : Entries.get? base key with
      | none => exact (nil_merge hinner).symm
      | some found =>
        cases found with
        | nested table => rfl
        | _ => exact (nil_merge hinner).symm
    | _ => simp [hextra, PropRule.isNested] at hleaf

theorem inner_merge_of_leaf (h : keyed extra = true) (base : List (PropKey × PropRule))
    {key : PropKey} (hleaf : leafAt? extra [key] ≠ none) :
    inner (mergeEntries base extra) key = [] ∧ inner extra key = [] := by
  rw [leafAt?_singleton] at hleaf
  unfold inner
  rw [get?_merge h]
  cases hextra : Entries.get? extra key with
  | none => simp [hextra] at hleaf
  | some rule =>
    cases rule with
    | nested added => simp [hextra, PropRule.isNested] at hleaf
    | _ => exact ⟨rfl, rfl⟩

/-- The table has no rule at the path and no leaf on the way to it. -/
def LeavesRoom (table : List (PropKey × PropRule)) (path : List PropKey) : Prop :=
  ruleAt? table path = none ∧
    ∀ shorter, shorter <+: path → shorter ≠ path → leafAt? table shorter = none

theorem leavesRoom_singleton (table : List (PropKey × PropRule)) (key : PropKey) :
    LeavesRoom table [key] ↔ Entries.get? table key = none := by
  refine and_iff_left fun shorter hprefix hne => ?_
  rcases List.prefix_cons_iff.mp hprefix with rfl | ⟨rest, rfl, hrest⟩
  · rfl
  · rw [List.prefix_nil.mp hrest] at hne
    exact absurd rfl hne

theorem leavesRoom_cons (table : List (PropKey × PropRule)) (key next : PropKey)
    (rest : List PropKey) : LeavesRoom table (key :: next :: rest) ↔
      leafAt? table [key] = none ∧ LeavesRoom (inner table key) (next :: rest) := by
  unfold LeavesRoom
  rw [ruleAt?_cons]
  constructor
  · rintro ⟨hrule, hway⟩
    refine ⟨hway [key] (by simp) (by simp), hrule, fun shorter hprefix hne => ?_⟩
    cases shorter with
    | nil => rfl
    | cons first others =>
      rw [← leafAt?_cons]
      exact hway _ (List.prefix_cons_inj key |>.mpr hprefix) fun heq => hne (List.cons.inj heq).2
  · rintro ⟨hleaf, hrule, hway⟩
    refine ⟨hrule, fun shorter hprefix hne => ?_⟩
    rcases List.prefix_cons_iff.mp hprefix with rfl | ⟨others, rfl, hothers⟩
    · rfl
    · cases others with
      | nil => exact hleaf
      | cons first others =>
        rw [leafAt?_cons]
        exact hway _ hothers fun heq => hne (by rw [heq])

open Classical in
/-- The leaves of a merged table: those of the second table, and those of the first one that the second
one leaves room for. -/
theorem leafAt?_merge (h : keyed extra = true) (base : List (PropKey × PropRule))
    (path : List PropKey) : leafAt? (mergeEntries base extra) path =
      (leafAt? extra path).or (if LeavesRoom extra path then leafAt? base path else none) := by
  induction path generalizing base extra with
  | nil => simp [leafAt?, ruleAt?]
  | cons key rest ih =>
    cases rest with
    | nil =>
      simp only [leafAt?_singleton, leavesRoom_singleton, get?_merge h]
      cases hextra : Entries.get? extra key with
      | none => simp
      | some rule =>
        cases hnested : rule.isNested <;>
          simp [hnested, isNested_combine, Option.filter, combine_leaf]
    | cons next others =>
      rw [leafAt?_cons, leafAt?_cons, leafAt?_cons, leavesRoom_cons]
      by_cases hleaf : leafAt? extra [key] = none
      · rw [inner_merge h base hleaf, ih (keyed_inner h key)]
        simp [hleaf]
      · obtain ⟨hmerged, hinner⟩ := inner_merge_of_leaf h base hleaf
        rw [hmerged, hinner, if_neg fun hroom => hleaf hroom.1]
        simp [leafAt?, ruleAt?_nil]

/-- Where both tables have a table, the merged one has these two merged. -/
theorem tableAt?_merge (h : keyed extra = true) {path : List PropKey}
    {first second : List (PropKey × PropRule)} (hbase : tableAt? base path = some first)
    (hextra : tableAt? extra path = some second) :
    tableAt? (mergeEntries base extra) path = some (mergeEntries first second) ∧
      keyed second = true := by
  induction path generalizing base extra with
  | nil =>
    rw [← Option.some.inj hbase, ← Option.some.inj hextra]
    exact ⟨rfl, h⟩
  | cons key rest ih =>
    unfold tableAt? at hbase hextra ⊢
    split at hbase
    · next table htable =>
      split at hextra
      · next added hadded =>
        have hinner : keyed added = true := ruleKeyed_of_get? h hadded
        rw [get?_merge h, htable, hadded]
        exact ih hinner hbase hextra
      · simp at hextra
    · simp at hbase

/-- No path ends in a table of the one and in a leaf of the other. -/
def Agree (table other : List (PropKey × PropRule)) : Prop :=
  ∀ path rule found, ruleAt? table path = some rule → ruleAt? other path = some found →
    rule.isNested = found.isNested

/-- Two rules that are both leaves, or both tables that agree. -/
def RulesAgree : PropRule → PropRule → Prop
  | .nested table, .nested other => Agree table other
  | rule, found => rule.isNested = found.isNested

variable {other : List (PropKey × PropRule)} {found : PropRule}

theorem Agree.rules (h : Agree table other) (hrule : Entries.get? table key = some rule)
    (hfound : Entries.get? other key = some found) : RulesAgree rule found := by
  have hkind : rule.isNested = found.isNested := h [key] rule found hrule hfound
  unfold RulesAgree
  split
  · next first second =>
    intro path rule found hfirst hsecond
    cases path with
    | nil => simp [ruleAt?] at hfirst
    | cons next rest =>
      refine h (key :: next :: rest) rule found ?_ ?_
      · rw [ruleAt?_cons, inner, hrule]
        exact hfirst
      · rw [ruleAt?_cons, inner, hfound]
        exact hsecond
  · exact hkind

/-- Under one key, it does not matter which of three tables are merged first. -/
def Associates (last : PropRule) : Prop :=
  ∀ first second, ruleKeyed first = true → ruleKeyed second = true → ruleKeyed last = true →
    RulesAgree first second → RulesAgree second last → RulesAgree first last →
      combine (some (combine (some first) second)) last =
        combine (some first) (combine (some second) last)

theorem merge_assoc_of {last : List (PropKey × PropRule)}
    (hassociates : ∀ entry ∈ last, Associates entry.2) (hbase : keyed base = true)
    (hextra : keyed extra = true) (hlast : keyed last = true) (hfirst : Agree base extra)
    (hsecond : Agree extra last) (hends : Agree base last) :
    mergeEntries (mergeEntries base extra) last = mergeEntries base (mergeEntries extra last) := by
  have hmerged := keyed_merge hextra hlast
  refine ext_keyed (keyed_merge (keyed_merge hbase hextra) hlast) (keyed_merge hbase hmerged) ?_
    fun key => ?_
  · simp [keys_merge hlast, keys_merge hextra, keys_merge hmerged, has_merge hextra,
      List.filter_filter]
  · rw [get?_merge hlast, get?_merge hmerged, get?_merge hextra, get?_merge hlast]
    cases hz : Entries.get? last key with
    | none => simp
    | some rule =>
      cases hy : Entries.get? extra key with
      | none => simp
      | some middle =>
        cases hx : Entries.get? base key with
        | none => simp
        | some first =>
          obtain ⟨entry, hentry, rfl⟩ := Entries.mem_of_get? hz
          have hsame := hassociates entry hentry first middle (ruleKeyed_of_get? hbase hx)
            (ruleKeyed_of_get? hextra hy) (ruleKeyed_of_get? hlast hz) (hfirst.rules hx hy)
            (hsecond.rules hy hz) (hends.rules hx hz)
          simp [hsame]

mutual

theorem associates (last : PropRule) : Associates last := by
  intro first second hfirst hsecond hlast hleft hright hends
  match last, first, second with
  | .nested last, .nested base, .nested extra =>
    simp only [combine]
    rw [merge_assoc_of (associates_entries last) hfirst hsecond hlast hleft hright hends]
  | .nested _, .rename _, _ | .nested _, .transform _, _ | .nested _, .invalid _, _ =>
    simp [RulesAgree, PropRule.isNested] at hends
  | .nested _, _, .rename _ | .nested _, _, .transform _ | .nested _, _, .invalid _ =>
    simp [RulesAgree, PropRule.isNested] at hright
  | .rename _, _, _ => simp only [combine]
  | .transform _, _, _ => simp only [combine]
  | .invalid _, _, _ => simp only [combine]

theorem associates_entries (last : List (PropKey × PropRule)) :
    ∀ entry ∈ last, Associates entry.2 := by
  match last with
  | [] => simp
  | (key, rule) :: rest =>
    exact List.forall_mem_cons.mpr ⟨associates rule, associates_entries rest⟩

end

theorem merge_assoc {last : List (PropKey × PropRule)} (hbase : keyed base = true)
    (hextra : keyed extra = true) (hlast : keyed last = true) (hfirst : Agree base extra)
    (hsecond : Agree extra last) (hends : Agree base last) :
    mergeEntries (mergeEntries base extra) last = mergeEntries base (mergeEntries extra last) :=
  merge_assoc_of (associates_entries last) hbase hextra hlast hfirst hsecond hends

mutual

/-- Whether a rule is a leaf or a table as the other one is, with all that stands below both. -/
def ruleAgrees : PropRule → Option PropRule → Bool
  | _, none => true
  | .nested table, some (.nested other) => agrees table other
  | rule, some found => rule.isNested == found.isNested

/-- Whether two tables agree on what is nested. -/
def agrees : List (PropKey × PropRule) → List (PropKey × PropRule) → Bool
  | [], _ => true
  | (key, rule) :: rest, other => ruleAgrees rule (Entries.get? other key) && agrees rest other

end

theorem ruleAgrees_of_agrees (h : agrees table other = true)
    (hrule : Entries.get? table key = some rule) :
    ruleAgrees rule (Entries.get? other key) = true := by
  induction table with
  | nil => simp at hrule
  | cons entry rest ih =>
    obtain ⟨first, found⟩ := entry
    obtain ⟨hfirst, hrest⟩ := Bool.and_eq_true_iff.mp h
    rw [Entries.get?_cons] at hrule
    split at hrule
    · next hsame => rwa [← Option.some.inj hrule, ← Entries.get?_congr other hsame]
    · exact ih hrest hrule

theorem isNested_of_ruleAgrees (h : ruleAgrees rule (some found) = true) :
    rule.isNested = found.isNested := by
  cases rule <;> cases found <;> first | rfl | simp [ruleAgrees, PropRule.isNested] at h

theorem agrees_inner (h : agrees table other = true) (key : PropKey) :
    agrees (inner table key) (inner other key) = true ∨ inner other key = [] := by
  unfold inner
  cases htable : Entries.get? table key with
  | none => exact .inl rfl
  | some rule =>
    have hagrees := ruleAgrees_of_agrees h htable
    cases rule with
    | nested below =>
      cases hother : Entries.get? other key with
      | none => exact .inr rfl
      | some found =>
        rw [hother] at hagrees
        cases found with
        | nested beside => exact .inl hagrees
        | _ => exact .inr rfl
    | _ => exact .inl rfl

theorem agree_of_agrees (h : agrees table other = true) : Agree table other := by
  intro path rule found hrule hfound
  induction path generalizing table other with
  | nil => simp [ruleAt?] at hrule
  | cons key rest ih =>
    cases rest with
    | nil =>
      have hagrees := ruleAgrees_of_agrees h hrule
      rw [show Entries.get? other key = some found from hfound] at hagrees
      exact isNested_of_ruleAgrees hagrees
    | cons next others =>
      rw [ruleAt?_cons] at hrule hfound
      rcases agrees_inner h key with hinner | hnone
      · exact ih hinner hrule hfound
      · rw [hnone, ruleAt?_nil] at hfound
        simp at hfound

/-- What a merged table is to the two tables that it is made of. -/
structure Merges (base extra merged : PropTable) : Prop where
  keyed : keyed merged = true
  added : ∀ path rule, leafAt? extra path = some rule → leafAt? merged path = some rule
  kept_iff : ∀ path rule, leafAt? base path = some rule → leafAt? extra path = none →
    ((leafAt? merged path).isSome = true ↔ LeavesRoom extra path)
  kept : ∀ path rule, leafAt? base path = some rule → LeavesRoom extra path →
    leafAt? merged path = some rule
  origin : ∀ path rule, leafAt? merged path = some rule →
    leafAt? extra path = some rule ∨ LeavesRoom extra path ∧ leafAt? base path = some rule
  levels : ∀ path first second, tableAt? base path = some first → tableAt? extra path = some second →
    ∃ level, tableAt? merged path = some level ∧ Entries.keys level =
      Entries.keys first ++ (Entries.keys second).filter fun key => !Entries.has first key

theorem merge_merges {base extra : PropTable} (hbase : keyed base = true)
    (hextra : keyed extra = true) : Merges base extra (merge base extra) := by
  have hleaf := leafAt?_merge hextra base
  refine ⟨keyed_merge hbase hextra, fun path rule hrule => ?_, fun path rule hrule hnone => ?_,
    fun path rule hrule hroom => ?_, fun path rule hrule => ?_,
    fun path first second hfirst hsecond => ?_⟩
  · rw [merge, hleaf, hrule, Option.some_or]
  · rw [merge, hleaf, hnone, Option.none_or]
    by_cases hroom : LeavesRoom extra path <;> simp [hroom, hrule]
  · have hnone : leafAt? extra path = none := by rw [leafAt?, hroom.1, Option.filter_none]
    rw [merge, hleaf, hnone, Option.none_or, if_pos hroom, hrule]
  · rw [merge, hleaf, Option.or_eq_some_iff] at hrule
    rcases hrule with hrule | ⟨-, hrule⟩
    · exact .inl hrule
    · split at hrule
      · next hroom => exact .inr ⟨hroom, hrule⟩
      · simp at hrule
  · obtain ⟨hlevel, hkeyed⟩ := tableAt?_merge hextra hfirst hsecond
    exact ⟨_, hlevel, keys_merge hkeyed first⟩

end PropTable

namespace LayerType

open PropTable

theorem ownTable_keyed (type : LayerType) : keyed type.ownTable = true := by
  cases type <;> rfl

theorem ownTable_agrees (type : LayerType) :
    agrees sharedTable type.ownTable = true ∧ agrees markerTable type.ownTable = true := by
  cases type <;> exact ⟨rfl, rfl⟩

/-- The tables of a layer type lose and invent no rule of the tables that they are made of, and the rules
for markers may as well be merged into those of the type first. -/
structure TablesMerge (type : LayerType) : Prop where
  plain : Merges sharedTable type.ownTable (type.table false)
  marked : Merges (merge sharedTable markerTable) type.ownTable (type.table true)
  markers : Merges markerTable type.ownTable (merge markerTable type.ownTable)
  markers_first : type.table true = merge sharedTable (merge markerTable type.ownTable)

theorem tables_merge (type : LayerType) : type.TablesMerge := by
  have hown := type.ownTable_keyed
  obtain ⟨hshared, hmarkers⟩ := type.ownTable_agrees
  exact
    { plain := merge_merges rfl hown
      marked := merge_merges (keyed_merge rfl rfl) hown
      markers := merge_merges rfl hown
      markers_first := merge_assoc rfl rfl hown (agree_of_agrees rfl) (agree_of_agrees hmarkers)
        (agree_of_agrees hshared) }

end LayerType

namespace PropTable

/-- Merging loses and invents no leaf and keeps the order of the keys; the empty table is neutral, a table
absorbs itself, and tables that agree on what is nested can be merged in either order. So it is with the
tables of all layer types. -/
theorem merge_laws {base extra : PropTable} (hbase : keyed base = true)
    (hextra : keyed extra = true) :
    Merges base extra (merge base extra) ∧
    merge base [] = base ∧ merge [] base = base ∧ merge base base = base ∧
    (∀ last, keyed last = true → Agree base extra → Agree extra last → Agree base last →
      merge (merge base extra) last = merge base (merge extra last)) ∧
    ∀ type : LayerType, type.TablesMerge := by
  refine ⟨merge_merges hbase hextra, rfl, nil_merge hbase, merge_self hbase, ?_, LayerType.tables_merge⟩
  intro last hlast
  exact merge_assoc hbase hextra hlast

/-- The tables of a layer with markers and cells of its own. -/
theorem merge_laws_markedCells :
    (keyed LayerType.sharedTable = true ∧ keyed LayerType.markerTable = true ∧
      keyed (LayerType.ownTable .hexagon) = true) ∧
    Merges LayerType.sharedTable LayerType.markerTable
      (merge LayerType.sharedTable LayerType.markerTable) ∧
    merge (merge LayerType.sharedTable LayerType.markerTable) (LayerType.ownTable .hexagon) =
      merge LayerType.sharedTable (merge LayerType.markerTable (LayerType.ownTable .hexagon)) := by
  obtain ⟨hmerges, -, -, -, hassoc, -⟩ := @merge_laws LayerType.sharedTable LayerType.markerTable rfl rfl
  refine ⟨⟨rfl, rfl, rfl⟩, hmerges, hassoc _ rfl ?_ ?_ ?_⟩
  · exact agree_of_agrees rfl
  · exact agree_of_agrees rfl
  · exact agree_of_agrees rfl

end PropTable

end MapLayers
