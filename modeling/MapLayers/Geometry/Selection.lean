import MapLayers.Geometry.Intersection
import MapLayers.Geometry.Reader
import MapLayers.Json.Compare

/-!
# Selection of features

The properties of the features inside an area, in the order of the features. With an id property a
feature is left out when an earlier selected one has the same id. Ids are the same if they are equal or
one and the same object. For NaN, which equals nothing, the latter decides: a document that is read from a
text holds a single NaN object, while one put together otherwise can hold many.
-/

namespace MapLayers

/-- How features are selected: how a geometry is read, when two of them meet, and whether all NaN of the
collection are one object. -/
structure Selector (γ : Type) where
  read : Json → Result γ
  meets : γ → γ → Bool
  oneNaN : Bool

structure Selection where
  ids : List Json
  selected : List Json.Fields

namespace Selection

def empty : Selection := ⟨[], []⟩

def idOf (idProperty : Json) (properties : Json.Fields) : Result (Option Json) :=
  if !idProperty.truthy then .ok none
  else
    match idProperty with
    | .text key => .ok (Entries.get? properties key)
    | .list _ | .object _ => .error .typeMismatch
    | _ => .ok none

def add (s : Selection) (id : Option Json) (properties : Json.Fields) : Selection :=
  ⟨id.toList ++ s.ids, properties :: s.selected⟩

end Selection

namespace Selector

variable {γ : Type} (selector : Selector γ)

/-- Two ids are equal or one object. -/
def sameId (a b : Json) : Bool := a.same b || (selector.oneNaN && a.isNaN && b.isNaN)

/-- Whether an id has been met; lists and objects are no ids. -/
def hasMet (s : Selection) : Option Json → Result Bool
  | none => .ok false
  | some id => if id.hashable then .ok (s.ids.any (selector.sameId id)) else .error .typeMismatch

def visit (inside : γ → Bool) (idProperty : Json) (s : Selection) (feature : Json) :
    Result Selection := do
  let described ← feature.lookup "geometry"
  if !described.truthy then return s
  let authored ← feature.lookup "properties"
  let properties ← if authored.truthy then authored.asFields else pure []
  let id ← Selection.idOf idProperty properties
  if ← selector.hasMet s id then return s
  let geometry ← selector.read described
  if inside geometry then return s.add id properties else return s

def run (inside : γ → Bool) (idProperty collection : Json) : Result (List Json.Fields) := do
  let authored ← collection.lookup "features"
  let features ← if authored.truthy then authored.elements else pure []
  let final ← features.foldlM (selector.visit inside idProperty) Selection.empty
  return final.selected.reverse

def select (collection filter idProperty : Json) : Result (List Json.Fields) := do
  if !filter.truthy then return []
  let area ← selector.read filter
  selector.run (selector.meets area) idProperty collection

/-- The plane geometry of this library, with every NaN an object of its own. -/
def plane : Selector Geometry := ⟨Geometry.ofJson, Geometry.intersects, false⟩

end Selector

def selectFeatures (collection filter idProperty : Json) : Result (List Json.Fields) :=
  Selector.plane.select collection filter idProperty

end MapLayers
