/-!
# Ordered entries

A mapping that remembers the order in which its keys arrived. A key that is set again keeps its
first place and its first form; a new key goes to the end. Lookups read the first entry with an
equal key.
-/

namespace MapLayers

/-- Keys with their values in the order of arrival. -/
abbrev Entries (κ : Type) (α : Type) := List (κ × α)

namespace Entries

variable {κ : Type} {α : Type} [BEq κ]

def get? (entries : Entries κ α) (key : κ) : Option α :=
  match entries with
  | [] => none
  | (k, v) :: rest => if k == key then some v else get? rest key

def has (entries : Entries κ α) (key : κ) : Bool := (entries.get? key).isSome

def set (entries : Entries κ α) (key : κ) (value : α) : Entries κ α :=
  match entries with
  | [] => [(key, value)]
  | (k, v) :: rest => if k == key then (k, value) :: rest else (k, v) :: set rest key value

/-- All entries of `extra` set one after the other. -/
def overlay (entries extra : Entries κ α) : Entries κ α :=
  extra.foldl (fun acc entry => set acc entry.1 entry.2) entries

def ofList (pairs : List (κ × α)) : Entries κ α := overlay [] pairs

def erase (entries : Entries κ α) (key : κ) : Entries κ α :=
  entries.filter fun entry => !(entry.1 == key)

def keys (entries : Entries κ α) : List κ := entries.map Prod.fst

theorem get?_set [EquivBEq κ] (entries : Entries κ α) (key other : κ) (value : α) :
    (entries.set key value).get? other = if key == other then some value else entries.get? other := by
  induction entries with
  | nil => simp [set, get?]
  | cons entry rest ih =>
    obtain ⟨k, v⟩ := entry
    by_cases hk : k == key
    · have same : (k == other) = (key == other) := BEq.congr_left hk
      by_cases ho : key == other <;> simp [set, get?, hk, same, ho]
    · by_cases ho : k == other
      · have differs : (key == other) = false := by
          apply Bool.eq_false_iff.mpr
          intro h
          exact hk (BEq.trans ho (BEq.symm h))
        simp [set, get?, hk, ho, differs]
      · simp [set, get?, hk, ho, ih]

theorem keys_set (entries : Entries κ α) (key : κ) (value : α) :
    (entries.set key value).keys =
      if entries.has key then entries.keys else entries.keys ++ [key] := by
  induction entries with
  | nil => simp [set, keys, has, get?]
  | cons entry rest ih =>
    obtain ⟨k, v⟩ := entry
    by_cases hk : k == key
    · simp [set, keys, has, get?, hk]
    · simp only [keys, has] at ih
      by_cases hm : (get? rest key).isSome <;> simp [set, keys, has, get?, hk, hm, ih]

end Entries

end MapLayers
