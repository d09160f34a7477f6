import MapLayers.Json.Access
import MapLayers.Json.Quantity

/-!
# Viewports

The part of the world that a map shows, by its west, south, east and north edges. A viewport wider
than the world in both directions does not filter at all.
-/

namespace MapLayers

structure Viewport where
  west : Float
  south : Float
  east : Float
  north : Float

namespace Viewport

def worldWidth : Number := .float 359.0

def worldHeight : Number := .float 170.1

/-- Whether one edge lies further from the other than the given extent. -/
def exceeds (low high : Json) (extent : Number) : Result Bool := do
  let high ← high.operand
  let low ← low.operand
  let span ← high.sub low
  return extent.less span

def isGlobal (west south east north : Json) : Result Bool := do
  if ← exceeds west east worldWidth then exceeds south north worldHeight else return false

/-- A viewport from its four edges, none when it shows the whole world. -/
def ofJson (value : Json) : Result (Option Viewport) := do
  let edges ← value.elements
  match edges with
  | [west, south, east, north] =>
    if ← isGlobal west south east north then return none
    let west ← west.toFloat
    let south ← south.toFloat
    let east ← east.toFloat
    let north ← north.toFloat
    return some ⟨west, south, east, north⟩
  | _ => throw (.viewportLength edges)

/-- The polygon of a viewport, counter-clockwise from its south-west corner. -/
def polygon (v : Viewport) : Json :=
  let corner (x y : Float) : Json := .list [.float x, .float y]
  .object [("type", .text "Polygon"),
    ("coordinates", .list [.list [corner v.west v.south, corner v.east v.south,
      corner v.east v.north, corner v.west v.north, corner v.west v.south]])]

/-- The spatial filter of a viewport, null when there is nothing to filter. -/
def filter (value : Json) : Result Json := do
  match ← ofJson value with
  | some viewport => return viewport.polygon
  | none => return .null

end Viewport

end MapLayers
