/-!
# Geometries in the plane

A geometry is a list of shapes, each a point, a path or an area, and covers all that its shapes cover; a
geometry without shapes is empty. Coordinates are exact, so that touching can be told from missing.
-/

namespace MapLayers

structure Position where
  x : Rat
  y : Rat
  deriving DecidableEq, Repr

structure Segment where
  start : Position
  stop : Position
  deriving DecidableEq, Repr

inductive Shape where
  | point (position : Position)
  /-- The segments between consecutive positions. -/
  | path (positions : List Position)
  /-- What lies within the rings an odd number of times, with the rings themselves. -/
  | area (rings : List (List Position))
  deriving DecidableEq, Repr

abbrev Geometry := List Shape

/-- The segments between consecutive positions. -/
def segmentsOf : List Position → List Segment
  | a :: b :: rest => ⟨a, b⟩ :: segmentsOf (b :: rest)
  | _ => []

def ringSegments (ring : List Position) : List Segment := segmentsOf (ring ++ ring.take 1)

namespace Shape

/-- The segments that a shape is drawn or bounded by. -/
def segments : Shape → List Segment
  | point _ => []
  | path positions => segmentsOf positions
  | area rings => rings.flatMap ringSegments

end Shape

end MapLayers
