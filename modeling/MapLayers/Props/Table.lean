import MapLayers.Json.Access
import MapLayers.Props.Key

/-!
# Prop tables

A prop table says how the fields of an authored object become props: under another name, through a
function that gives several props, or by a table of its own for a nested object or list. Fields that
are absent or null write nothing. Tables of a layer type are merged into shared ones.
-/

namespace MapLayers

inductive PropRule where
  | rename (prop : String)
  | transform (apply : Json → Result Json.Fields)
  | nested (table : List (PropKey × PropRule))
  | invalid (found : Json)

abbrev PropTable := Entries PropKey PropRule

namespace PropTable

/-- The part of a source that a key selects, null if there is none. -/
def select (source : Json) (key : PropKey) : Json :=
  match source with
  | .object fields =>
    match key with
    | .field name => Json.fieldOf fields name
    | _ => .null
  | .list items =>
    match key.index? with
    | some n => (Json.itemAt items n).toOption.getD .null
    | none => .null
  | _ => .null

/-- What an application leaves: the props written, and the failure that stopped it, if any. -/
structure Outcome where
  props : Json.Fields
  fault : Option Fault

mutual

def applyRule (key : PropKey) (value : Json) (target : Json.Fields) : PropRule → Outcome
  | .rename prop => ⟨Entries.set target prop value, none⟩
  | .transform apply =>
    match apply value with
    | .ok written => ⟨Entries.overlay target written, none⟩
    | .error fault => ⟨target, some fault⟩
  | .nested table => applyEntries value target table
  | .invalid found => ⟨target, some (.unknownRule key.text found.literal)⟩

/-- Applies the rules in order; what was written before a failure stays. -/
def applyEntries (source : Json) (target : Json.Fields) : List (PropKey × PropRule) → Outcome
  | [] => ⟨target, none⟩
  | (key, rule) :: rest =>
    let value := select source key
    if value.isNull then applyEntries source target rest
    else
      let outcome := applyRule key value target rule
      match outcome.fault with
      | some _ => outcome
      | none => applyEntries source outcome.props rest

end

def apply (table : PropTable) (source : Json) (target : Json.Fields) : Outcome :=
  applyEntries source target table

mutual

/-- The rule for a key that may have one already: nested tables are merged, any other rule replaces
the one before it. -/
def combine (current : Option PropRule) : PropRule → PropRule
  | .nested extra =>
    match current with
    | some (.nested base) => .nested (mergeEntries base extra)
    | _ => .nested extra
  | rule => rule

def mergeEntries (base : List (PropKey × PropRule)) : List (PropKey × PropRule) →
    List (PropKey × PropRule)
  | [] => base
  | (key, rule) :: rest =>
    mergeEntries (Entries.set base key (combine (Entries.get? base key) rule)) rest

end

def merge (base extra : PropTable) : PropTable := mergeEntries base extra

end PropTable

end MapLayers
