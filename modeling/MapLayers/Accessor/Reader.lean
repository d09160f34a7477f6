import MapLayers.Json.Access
import MapLayers.Json.Literal
import MapLayers.Text.LetterCase

/-!
# Reading a column once aggregated

A column may arrive under its own name or, after aggregation, with the aggregation behind it. A
reader tries the names in order on every row until one is present, and from then on reads that name
only. What a reader has settled on is kept apart from it and handed to it with every row.
-/

namespace MapLayers

/-- The visual channels that read a column through a reader of their own. The accessor of a channel
remembers its earlier calls, under whatever props it stands. -/
inductive Channel where
  | fillColor
  | lineColor
  | pointRadius
  | elevation
  | weight
  | iconAngle
  deriving DecidableEq, Repr

structure Reader where
  channel : Channel
  keys : List Json

namespace Reader

/-- The names of a column: its own, then with the aggregation as written and in upper case. -/
def keysFor (name aggregation : Json) : Result (List Json) :=
  if !aggregation.truthy then .ok [name]
  else
    match aggregation with
    | .text suffix =>
      let named (s : String) : Json := .text (name.display ++ "_" ++ s)
      .ok [name, named suffix, named (Text.upper suffix)]
    | _ => .error .noMember

def new (channel : Channel) (name aggregation : Json) : Result Reader := do
  let keys ← keysFor name aggregation
  return ⟨channel, keys⟩

/-- The failure of a row that has none of the names. -/
def notFound (keys : List Json) : Fault :=
  match keys with
  | .text _ :: _ | [] => .noAccessorKey (keys.map Json.display)
  | key :: _ => .unnamedAccessorKey key.typeName

def firstPresent (columns : Json) : List Json → Result (Option Json)
  | [] => .ok none
  | key :: rest => do
    if ← columns.contains key then return some key else firstPresent columns rest

/-- Reads the columns of a row; gives the name settled on after it. -/
def read (r : Reader) (settled : Option Json) (columns : Json) : Result Json × Option Json :=
  match settled with
  | some key => (columns.lookupBy key, settled)
  | none =>
    match firstPresent columns r.keys with
    | .error fault => (.error fault, none)
    | .ok none => (.error (notFound r.keys), none)
    | .ok (some key) => (columns.select key, some key)

end Reader

end MapLayers
