import MapLayers.Entries

/-!
# Lookups after writing

Setting and overlaying entries, seen through lookups: what a later entry changes and what it leaves.
Entries that come about by setting alone have distinct keys, and a lookup in them gives what was
there before or one of the values that were set.
-/

namespace MapLayers.Entries

variable {κ α β : Type}

/-- No key stands twice. -/
def Distinct (entries : Entries κ α) : Prop := entries.keys.Nodup

theorem Distinct.nil : Distinct ([] : Entries κ α) := List.nodup_nil

theorem Distinct.map {entries : Entries κ α} (h : entries.Distinct) (f : α → β) :
    Distinct (entries.map fun entry => (entry.1, f entry.2)) := by
  have hkeys : keys (entries.map fun entry => (entry.1, f entry.2)) = entries.keys := by
    simp [keys, List.map_map, Function.comp_def]
  unfold Distinct
  rw [hkeys]
  exact h

variable [BEq κ]

@[simp] theorem get?_nil (key : κ) : get? ([] : Entries κ α) key = none := rfl

theorem get?_cons (key other : κ) (value : α) (rest : Entries κ α) :
    get? ((other, value) :: rest) key = if other == key then some value else get? rest key := rfl

theorem mem_of_get? {entries : Entries κ α} {key : κ} {value : α}
    (h : entries.get? key = some value) : ∃ entry ∈ entries, entry.2 = value := by
  induction entries with
  | nil => simp at h
  | cons entry rest ih =>
    obtain ⟨other, found⟩ := entry
    rw [get?_cons] at h
    split at h
    · exact ⟨(other, found), List.mem_cons_self, Option.some.inj h⟩
    · obtain ⟨entry, hentry, heq⟩ := ih h
      exact ⟨entry, List.mem_cons_of_mem _ hentry, heq⟩

theorem mem_of_get?_eq_some [LawfulBEq κ] {entries : Entries κ α} {key : κ} {value : α}
    (h : entries.get? key = some value) : (key, value) ∈ entries := by
  induction entries with
  | nil => simp at h
  | cons entry rest ih =>
    obtain ⟨other, found⟩ := entry
    rw [get?_cons] at h
    split at h
    · next hsame =>
      rw [eq_of_beq hsame, Option.some.inj h]
      exact List.mem_cons_self
    · exact List.mem_cons_of_mem _ (ih h)

theorem get?_of_mem [LawfulBEq κ] {entries : Entries κ α} (h : entries.Distinct) {key : κ}
    {value : α} (hmem : (key, value) ∈ entries) : entries.get? key = some value := by
  induction entries with
  | nil => simp at hmem
  | cons entry rest ih =>
    obtain ⟨other, found⟩ := entry
    obtain ⟨hnot, hrest⟩ := List.nodup_cons.mp h
    rcases List.mem_cons.mp hmem with hfirst | hmem
    · obtain ⟨rfl, rfl⟩ := Prod.mk.inj hfirst
      rw [get?_cons, if_pos BEq.rfl]
    · have hne : other ≠ key := by
        rintro rfl
        exact hnot (List.mem_map.mpr ⟨(other, value), hmem, rfl⟩)
      rw [get?_cons, if_neg (by simpa using hne)]
      exact ih hrest hmem

theorem get?_map (entries : Entries κ α) (f : α → β) (key : κ) :
    get? (entries.map fun entry => (entry.1, f entry.2)) key = (entries.get? key).map f := by
  induction entries with
  | nil => rfl
  | cons entry rest ih =>
    obtain ⟨other, value⟩ := entry
    rw [List.map_cons, get?_cons, get?_cons, ih]
    split <;> rfl

@[simp] theorem overlay_nil (entries : Entries κ α) : entries.overlay [] = entries := rfl

theorem overlay_cons (entries : Entries κ α) (key : κ) (value : α) (rest : Entries κ α) :
    entries.overlay ((key, value) :: rest) = (entries.set key value).overlay rest := rfl

theorem set_eq_self {entries : Entries κ α} {key : κ} {value : α}
    (h : entries.get? key = some value) : entries.set key value = entries := by
  induction entries with
  | nil => simp at h
  | cons entry rest ih =>
    obtain ⟨other, found⟩ := entry
    rw [get?_cons] at h
    unfold set
    split at h
    · next hsame => rw [if_pos hsame, Option.some.inj h]
    · next hother => rw [if_neg hother, ih h]

/-- Entries that are there already change nothing. -/
theorem overlay_eq_self {entries extra : Entries κ α}
    (h : ∀ entry ∈ extra, entries.get? entry.1 = some entry.2) : entries.overlay extra = entries := by
  induction extra with
  | nil => rfl
  | cons entry rest ih =>
    obtain ⟨hentry, hrest⟩ := List.forall_mem_cons.mp h
    rw [overlay_cons, set_eq_self hentry]
    exact ih hrest

theorem set_ne_nil (entries : Entries κ α) (key : κ) (value : α) : entries.set key value ≠ [] := by
  cases entries with
  | nil => simp [set]
  | cons entry rest =>
    unfold set
    split <;> simp

theorem eq_nil_of_overlay {entries extra : Entries κ α} (h : entries.overlay extra = []) :
    entries = [] := by
  induction extra generalizing entries with
  | nil => exact h
  | cons entry rest ih => exact absurd (ih h) (set_ne_nil entries entry.1 entry.2)

theorem forall_mem_set {entries : Entries κ α} {motive : α → Prop}
    (hentries : ∀ entry ∈ entries, motive entry.2) (key : κ) {value : α} (hvalue : motive value) :
    ∀ entry ∈ entries.set key value, motive entry.2 := by
  induction entries with
  | nil => simpa [set] using hvalue
  | cons entry rest ih =>
    obtain ⟨hentry, hrest⟩ := List.forall_mem_cons.mp hentries
    unfold set
    split
    · exact List.forall_mem_cons.mpr ⟨hvalue, hrest⟩
    · exact List.forall_mem_cons.mpr ⟨hentry, ih hrest⟩

theorem forall_mem_overlay {entries extra : Entries κ α} {motive : α → Prop}
    (hentries : ∀ entry ∈ entries, motive entry.2) (hextra : ∀ entry ∈ extra, motive entry.2) :
    ∀ entry ∈ entries.overlay extra, motive entry.2 := by
  induction extra generalizing entries with
  | nil => exact hentries
  | cons entry rest ih =>
    obtain ⟨hentry, hrest⟩ := List.forall_mem_cons.mp hextra
    exact ih (forall_mem_set hentries entry.1 hentry) hrest

/-- What holds of the values in a list holds of the entries that they become. -/
theorem forall_mem_ofList {pairs : List (κ × α)} {motive : α → Prop}
    (h : ∀ pair ∈ pairs, motive pair.2) : ∀ entry ∈ ofList pairs, motive entry.2 :=
  forall_mem_overlay (by simp) h

/-- What setting entries that a condition admits, one after the other, can make of the first ones. -/
inductive Reaches (admits : κ → α → Prop) (start : Entries κ α) : Entries κ α → Prop
  | start : Reaches admits start start
  | set {entries} {key : κ} {value : α} :
    Reaches admits start entries → admits key value → Reaches admits start (entries.set key value)

namespace Reaches

variable {admits : κ → α → Prop} {start middle finish : Entries κ α}

theorem trans (hfirst : Reaches admits start middle) (hsecond : Reaches admits middle finish) :
    Reaches admits start finish := by
  induction hsecond with
  | start => exact hfirst
  | set _ hadmits ih => exact .set ih hadmits

theorem overlay (h : Reaches admits start middle) {extra : Entries κ α}
    (hextra : ∀ entry ∈ extra, admits entry.1 entry.2) :
    Reaches admits start (middle.overlay extra) := by
  induction extra generalizing middle with
  | nil => exact h
  | cons entry rest ih =>
    have hset : Reaches admits start (middle.set entry.1 entry.2) :=
      .set h (hextra entry (by simp))
    exact ih hset fun other hother => hextra other (List.mem_cons_of_mem entry hother)

end Reaches

section Equivalence
variable [EquivBEq κ]

theorem get?_congr (entries : Entries κ α) {key other : κ} (h : key == other) :
    entries.get? key = entries.get? other := by
  induction entries with
  | nil => rfl
  | cons entry rest ih => rw [get?_cons, get?_cons, ih, BEq.congr_right h]

theorem has_set (entries : Entries κ α) (key other : κ) (value : α) :
    (entries.set key value).has other = (key == other || entries.has other) := by
  rw [has, get?_set]
  cases key == other <;> rfl

/-- The keys after one more entry, with further keys behind them that are new. -/
theorem keys_set_append (entries : Entries κ α) {key : κ} {others : List κ} (value : α)
    (h : ∀ other ∈ others, (key == other) = false) :
    (entries.set key value).keys ++ others.filter (fun other => !(entries.set key value).has other) =
      entries.keys ++ (key :: others).filter fun other => !entries.has other := by
  have hothers : (others.filter fun other => !(entries.set key value).has other) =
      others.filter fun other => !entries.has other := by
    apply List.filter_congr
    intro other hother
    rw [has_set, h other hother, Bool.false_or]
  rw [hothers, keys_set]
  cases hkey : entries.has key <;> simp [hkey]

end Equivalence

variable [LawfulBEq κ]

theorem get?_eq_none_iff (entries : Entries κ α) (key : κ) :
    entries.get? key = none ↔ key ∉ entries.keys := by
  induction entries with
  | nil => simp [keys]
  | cons entry rest ih =>
    obtain ⟨other, value⟩ := entry
    rw [get?_cons]
    by_cases h : other = key
    · simp [keys, h]
    · have hne : key ≠ other := Ne.symm h
      simp only [keys] at ih
      simp [keys, h, hne, ih]

theorem get?_set_self (entries : Entries κ α) (key : κ) (value : α) :
    (entries.set key value).get? key = some value := by
  rw [get?_set]
  simp

theorem get?_set_of_ne (entries : Entries κ α) {key other : κ} (value : α) (h : key ≠ other) :
    (entries.set key value).get? other = entries.get? other := by
  rw [get?_set]
  simp [h]

theorem get?_erase (entries : Entries κ α) (key other : κ) :
    (entries.erase key).get? other = if key == other then none else entries.get? other := by
  induction entries with
  | nil => simp [erase]
  | cons entry rest ih =>
    obtain ⟨found, value⟩ := entry
    rw [erase] at ih
    by_cases hkey : found = key
    · subst found
      rw [erase, List.filter_cons_of_neg (by simp), ih, get?_cons]
      split <;> rfl
    · rw [erase, List.filter_cons_of_pos (by simpa using hkey), get?_cons, get?_cons, ih]
      by_cases hother : key = other
      · subst other
        simp [hkey]
      · simp [hother]

theorem Distinct.set {entries : Entries κ α} (h : entries.Distinct) (key : κ) (value : α) :
    (entries.set key value).Distinct := by
  unfold Distinct
  rw [keys_set]
  split
  · exact h
  · next habsent =>
    have hkey : key ∉ entries.keys := by
      rw [← get?_eq_none_iff]
      simpa [has] using habsent
    exact List.nodup_append.mpr ⟨h, by simp, by
      intro a ha b hb
      rw [List.mem_singleton.mp hb]
      exact fun heq => hkey (heq ▸ ha)⟩

/-- What is laid over wins, and shows through where it has nothing. -/
theorem get?_overlay (entries : Entries κ α) {extra : Entries κ α} (h : extra.Distinct) (key : κ) :
    (entries.overlay extra).get? key = (extra.get? key).or (entries.get? key) := by
  induction extra generalizing entries with
  | nil => rfl
  | cons entry rest ih =>
    obtain ⟨other, value⟩ := entry
    obtain ⟨hnot, hrest⟩ := List.nodup_cons.mp h
    rw [overlay_cons, ih _ hrest, get?_cons]
    by_cases hk : other = key
    · subst other
      have hnone : get? rest key = none := (get?_eq_none_iff rest key).mpr hnot
      simp [hnone, get?_set_self]
    · simp [hk, get?_set_of_ne]

/-- The last of the entries that are laid over wins. -/
theorem get?_overlay_ofList (entries extra : Entries κ α) (key : κ) :
    (entries.overlay extra).get? key = ((ofList extra).get? key).or (entries.get? key) := by
  induction extra generalizing entries with
  | nil => rfl
  | cons entry rest ih =>
    obtain ⟨other, value⟩ := entry
    have hfirst : ofList ((other, value) :: rest) = (set [] other value).overlay rest := rfl
    rw [overlay_cons, ih, hfirst, ih, get?_set, get?_set]
    cases (ofList rest).get? key <;> by_cases hk : other == key <;> simp [hk]

theorem Distinct.overlay {entries : Entries κ α} (h : entries.Distinct) (extra : Entries κ α) :
    (entries.overlay extra).Distinct := by
  induction extra generalizing entries with
  | nil => exact h
  | cons entry rest ih => exact ih (h.set entry.1 entry.2)

namespace Reaches

variable {admits : κ → α → Prop} {start finish : Entries κ α}

theorem distinct (h : Reaches admits start finish) (hstart : start.Distinct) :
    finish.Distinct := by
  induction h with
  | start => exact hstart
  | set _ _ ih => exact ih.set _ _

theorem get? (h : Reaches admits start finish) (key : κ) :
    finish.get? key = start.get? key ∨
      ∃ value, finish.get? key = some value ∧ admits key value := by
  induction h with
  | start => exact .inl rfl
  | @set entries other value _ hadmits ih =>
    by_cases hk : other = key
    · subst other
      exact .inr ⟨value, get?_set_self entries key value, hadmits⟩
    · rw [get?_set_of_ne entries value hk]
      exact ih

/-- A key under which nothing is admitted keeps its value. -/
theorem get?_eq (h : Reaches admits start finish) {key : κ} (hkey : ∀ value, ¬admits key value) :
    finish.get? key = start.get? key := by
  rcases h.get? key with hsame | ⟨value, -, hadmits⟩
  · exact hsame
  · exact absurd hadmits (hkey value)

/-- From nothing, every value found has been admitted. -/
theorem admits_of_get? (h : Reaches admits [] finish) {key : κ} {value : α}
    (hfound : finish.get? key = some value) : admits key value := by
  rcases h.get? key with hsame | ⟨other, hother, hadmits⟩
  · rw [hsame] at hfound
    simp at hfound
  · rw [hother] at hfound
    exact Option.some.inj hfound ▸ hadmits

end Reaches

theorem set_set (entries : Entries κ α) (key : κ) (first second : α) :
    (entries.set key first).set key second = entries.set key second := by
  induction entries with
  | nil => simp [set]
  | cons entry rest ih =>
    obtain ⟨other, value⟩ := entry
    by_cases hk : other == key <;> simp [set, hk, ih]

/-- Entries under different keys can be set in either order once one of the keys is there. -/
theorem set_comm {entries : Entries κ α} {key other : κ} (h : key ≠ other)
    (hthere : entries.has key = true) (value extra : α) :
    (entries.set other extra).set key value = (entries.set key value).set other extra := by
  induction entries with
  | nil => simp [has] at hthere
  | cons entry rest ih =>
    obtain ⟨found, old⟩ := entry
    by_cases hk : found = key
    · subst found
      simp [set, h]
    · have hrest : has rest key = true := by simpa [has, get?_cons, hk] using hthere
      by_cases ho : found = other
      · simp [set, ho, Ne.symm h]
      · simp [set, hk, ho, ih hrest]

theorem overlay_self {entries : Entries κ α} (h : entries.Distinct) :
    entries.overlay entries = entries :=
  overlay_eq_self fun _ hentry => get?_of_mem h hentry

/-- An entry that is there already can be set before or after entries under other keys. -/
theorem set_overlay_comm {entries extra : Entries κ α} {key : κ} (hkey : key ∉ extra.keys)
    (hthere : entries.has key = true) (value : α) :
    (entries.overlay extra).set key value = (entries.set key value).overlay extra := by
  induction extra generalizing entries with
  | nil => rfl
  | cons entry rest ih =>
    obtain ⟨other, found⟩ := entry
    obtain ⟨hne, hrest⟩ : key ≠ other ∧ key ∉ keys rest := by simpa [keys] using hkey
    have hstays : (entries.set other found).has key = true := by simp [has_set, hthere]
    rw [overlay_cons, overlay_cons, ih hrest hstays, set_comm hne hthere]

theorem overlay_set (entries : Entries κ α) {extra : Entries κ α} (h : extra.Distinct) (key : κ)
    (value : α) : entries.overlay (extra.set key value) = (entries.overlay extra).set key value := by
  induction extra generalizing entries with
  | nil => rfl
  | cons entry rest ih =>
    obtain ⟨other, found⟩ := entry
    obtain ⟨hnot, hrest⟩ := List.nodup_cons.mp h
    by_cases hk : other = key
    · subst other
      have hthere : (entries.set key found).has key = true := by simp [has_set]
      rw [set, if_pos BEq.rfl, overlay_cons, overlay_cons, set_overlay_comm hnot hthere, set_set]
    · rw [set, if_neg (by simpa using hk), overlay_cons, overlay_cons, ih _ hrest]

/-- Laying over in two parts is laying over at once. -/
theorem overlay_overlay (entries : Entries κ α) {extra : Entries κ α} (h : extra.Distinct)
    (more : Entries κ α) :
    entries.overlay (extra.overlay more) = (entries.overlay extra).overlay more := by
  induction more generalizing extra with
  | nil => rfl
  | cons entry rest ih => rw [overlay_cons, overlay_cons, ih (h.set _ _), overlay_set entries h]

/-- The keys that were there keep their places, and the new ones follow in their order. -/
theorem keys_overlay (entries : Entries κ α) {extra : Entries κ α} (h : extra.Distinct) :
    (entries.overlay extra).keys = entries.keys ++ extra.keys.filter fun key => !entries.has key := by
  induction extra generalizing entries with
  | nil => simp [keys]
  | cons entry rest ih =>
    obtain ⟨hnot, hrest⟩ := List.nodup_cons.mp h
    rw [overlay_cons, ih _ hrest]
    refine keys_set_append entries entry.2 fun other hother => ?_
    rw [beq_eq_false_iff_ne]
    rintro rfl
    exact hnot hother

theorem set_of_new {entries : Entries κ α} {key : κ} (h : key ∉ entries.keys) (value : α) :
    entries.set key value = entries ++ [(key, value)] := by
  induction entries with
  | nil => rfl
  | cons entry rest ih =>
    obtain ⟨hne, hrest⟩ : key ≠ entry.1 ∧ key ∉ keys rest := by simpa [keys] using h
    rw [set, if_neg (by simpa using Ne.symm hne), ih hrest, List.cons_append]

/-- Entries with other keys are laid over at the end. -/
theorem overlay_of_new {entries extra : Entries κ α} (h : Distinct (entries ++ extra)) :
    entries.overlay extra = entries ++ extra := by
  induction extra generalizing entries with
  | nil => simp
  | cons entry rest ih =>
    have hnew : entry.1 ∉ entries.keys := by
      intro hmem
      have hkeys : (entries.keys ++ keys (entry :: rest)).Nodup := by simpa [Distinct, keys] using h
      exact (List.nodup_append.mp hkeys).2.2 entry.1 hmem entry.1 (by simp [keys]) rfl
    have hmoved : entries ++ entry :: rest = (entries ++ [(entry.1, entry.2)]) ++ rest := by simp
    rw [overlay_cons, set_of_new hnew, ih (hmoved ▸ h), hmoved]

theorem ofList_eq_self {entries : Entries κ α} (h : entries.Distinct) : ofList entries = entries :=
  overlay_of_new h

theorem erase_set (entries : Entries κ α) (key other : κ) (value : α) :
    (entries.set key value).erase other =
      if key == other then entries.erase other else (entries.erase other).set key value := by
  unfold erase
  induction entries with
  | nil => by_cases hk : key = other <;> simp [set, hk]
  | cons entry rest ih =>
    obtain ⟨found, old⟩ := entry
    by_cases hk : found = key
    · subst found
      by_cases ho : key = other <;> simp [set, ho]
    · by_cases ho : found = other <;> by_cases hko : key = other <;> simp_all [set]

/-- Erasing a key from what has been laid over is erasing it from both parts. -/
theorem erase_overlay (entries extra : Entries κ α) (key : κ) :
    (entries.overlay extra).erase key = (entries.erase key).overlay (extra.erase key) := by
  induction extra generalizing entries with
  | nil => rfl
  | cons entry rest ih =>
    obtain ⟨other, value⟩ := entry
    rw [overlay_cons, ih, erase_set]
    by_cases hk : other = key <;> simp [erase, hk, overlay_cons]

end MapLayers.Entries
