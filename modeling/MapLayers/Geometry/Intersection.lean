import MapLayers.Geometry.Basic

/-!
# Intersection

Two geometries intersect when they have a position in common; touching is enough, and the inside of a
hole belongs to no area. Shapes whose segments do not meet lie apart or one inside the other, so that
one position of each decides.
-/

namespace MapLayers

/-- Twice the signed area of the triangle: positive when `c` lies to the left of the way from `a` to
`b`, zero when the three are in line. -/
def turn (a b c : Position) : Rat := (b.x - a.x) * (c.y - a.y) - (b.y - a.y) * (c.x - a.x)

/-- Whether `v` lies between the two bounds, in either order of them. -/
def isBetween (a b v : Rat) : Bool := (a ≤ v && v ≤ b) || (b ≤ v && v ≤ a)

namespace Segment

def contains (s : Segment) (p : Position) : Bool :=
  turn s.start s.stop p = 0 && isBetween s.start.x s.stop.x p.x
    && isBetween s.start.y s.stop.y p.y

def separates (s t : Segment) : Bool :=
  turn s.start s.stop t.start * turn s.start s.stop t.stop < 0

def meets (s t : Segment) : Bool :=
  (s.separates t && t.separates s) || s.contains t.start || s.contains t.stop
    || t.contains s.start || t.contains s.stop

/-- Whether the ray from `p` to the right crosses the segment, of which the upper end counts and the
lower one does not. -/
def crossesRay (s : Segment) (p : Position) : Bool :=
  if s.start.y ≤ p.y && p.y < s.stop.y then 0 < turn s.start s.stop p
  else if s.stop.y ≤ p.y && p.y < s.start.y then turn s.start s.stop p < 0
  else false

end Segment

namespace Shape

/-- An area covers its rings, and what a ray leaves by an odd number of crossings. -/
def covers (shape : Shape) (p : Position) : Bool :=
  match shape with
  | point q => p = q
  | path _ => shape.segments.any fun s => s.contains p
  | area _ =>
    (shape.segments.any fun s => s.contains p)
      || shape.segments.countP (fun s => s.crossesRay p) % 2 = 1

def witnesses : Shape → List Position
  | point p => [p]
  | path positions => positions.take 1
  | area rings => rings.flatMap fun ring => ring.take 1

def meets (a b : Shape) : Bool :=
  (a.segments.any fun s => b.segments.any fun t => s.meets t)
    || a.witnesses.any b.covers || b.witnesses.any a.covers

end Shape

def Geometry.intersects (a b : Geometry) : Bool := a.any fun s => b.any fun t => s.meets t

end MapLayers
