import MapLayers.Json.Access

/-!
# Altitude from a column

A point layer can take the height of its points from a column: every point of the data is given it as
its third coordinate. Other geometries, and data without features, stay as they are.
-/

namespace MapLayers.Altitude

/-- A feature with the altitude column as the height of its point. -/
def lift (column feature : Json) : Result Json := do
  let geometry ← feature.lookup "geometry"
  let geometry := geometry.orElse (.object [])
  let type ← geometry.lookup "type"
  if !type.isTheText "Point" then return feature
  let properties ← feature.lookup "properties"
  let height ← (properties.orElse (.object [])).lookupBy column
  let coordinates ← geometry.field "coordinates"
  let plane ← coordinates.firstItems 2
  let lifted := Entries.set geometry.fieldsOrNone "coordinates" (.list (plane ++ [height]))
  return .object (Entries.set feature.fieldsOrNone "geometry" (.object lifted))

def transform (column data : Json) : Result Json :=
  match data with
  | .object fields =>
    match Entries.get? fields "features" with
    | none => .ok data
    | some features => do
      let features ← if features.truthy then features.elements else pure []
      let lifted ← features.mapM (lift column)
      return .object (Entries.set fields "features" (.list lifted))
  | _ => .ok data

end MapLayers.Altitude
