import NetOnChip.Network

/-!
# Dimension-ordered routing

A route travels along the row of its source until it is in the column of the sink, and then along
that column. At every router it takes the link that leads to the nearest router straight ahead; of
two equally near ones it takes the link that was added first.

A route that would come to a router for the second time is given up, so it visits at most as many
routers as there are; that number bounds the recursion in `walk`. A route that wanted to visit
another one would end with a fault, and not as if it had been given up.
-/

namespace NetOnChip

namespace DimensionOrder

/-- The direction to take on one tile in order to come to another one. Columns come first; on the
tile itself, and on tiles of other layers above or below it, the direction is down. -/
def heading (here sink : Tile) : Direction :=
  if here.x < sink.x then
    .right
  else if sink.x < here.x then
    .left
  else if here.y < sink.y then
    .up
  else
    .down

/-- Whether a tile lies straight ahead of another one in a direction. -/
def isAhead (direction : Direction) (here next : Tile) : Bool :=
  match direction with
  | .right => next.y = here.y && here.x < next.x
  | .left => next.y = here.y && next.x < here.x
  | .up => next.x = here.x && here.y < next.y
  | .down => next.x = here.x && next.y < here.y

/-- A step over one link. -/
structure Hop where
  /-- The link. -/
  link : LinkId
  /-- The router that it leads to. -/
  next : RouterId
  /-- The tile of that router. -/
  tile : Tile
  deriving DecidableEq, Repr

/-- The hop to the nearest tile, the first of those that are equally near. -/
def nearest? (here : Tile) : List Hop → Option Hop
  | [] => none
  | h :: hops =>
    match nearest? here hops with
    | none => some h
    | some g => if g.tile.distance here < h.tile.distance here then some g else some h

variable {α : Type} (t : Topology α)

/-- The step over a link. -/
def hop (l : LinkId) : Attempt α Hop := do
  let link ← t.link l
  let next ← t.router link.sink
  return ⟨l, link.sink, next.tile⟩

/-- The hops that are possible at a router, in the order of its outgoing links. -/
def hops : List LinkId → Attempt α (List Hop)
  | [] => .ok []
  | l :: links => do
    let h ← hop t l
    let others ← hops links
    return h :: others

/-- Goes on to the sink from a router, where the routers marked as visited are forbidden. The links
taken so far are given with the last one first. -/
def walk (source sink : RouterId) :
    Nat → (visited : Array Bool) → (here : RouterId) → (trail : Route) → Attempt α Route
  | fuel, visited, here, trail =>
    if here = sink then
      .ok trail.reverse
    else do
      let place := (← t.router here).tile
      let target := (← t.router sink).tile
      let direction := heading place target
      let options ← hops t (← t.outgoing here)
      match nearest? place (options.filter fun h ↦ isAhead direction place h.tile) with
      | none =>
        Attempt.fail (.routingFailed .dimensionOrder source sink (.noLinkHeading here direction))
      | some h =>
        if ← Attempt.entry visited h.next then
          Attempt.fail (.routingFailed .dimensionOrder source sink (.revisits h.next))
        else
          match fuel with
          | 0 => Attempt.crash .stepsExhausted
          | fuel + 1 =>
            walk source sink fuel (visited.setIfInBounds h.next.index true) h.next
              (h.link :: trail)

/-- The dimension-ordered route. It is empty when both ends are the same router. -/
def route (source sink : RouterId) : Attempt α Route := do
  let _ ← t.router source
  let visited := (Array.replicate t.routers.size false).setIfInBounds source.index true
  walk t source sink t.routers.size visited source []

end DimensionOrder

end NetOnChip
