import NetOnChip.Network

/-!
# Routing with the fewest hops

A breadth-first search from the source. Every router that the search reaches keeps the route by
which it was reached first, and routers are left in the order in which they were reached. The links
that leave a router are tried in the order in which they were added, so among the routes with the
fewest links the search finds the one that comes first when link identifiers are compared from the
source on.

A router is reached once, so the search leaves at most as many routers as there are; that number
bounds the recursion in `search`. A search that wanted to leave another one would end with a fault,
and not as if there was no route.
-/

namespace NetOnChip

namespace FewestHops

/-- A router that a search has reached. -/
structure Reached where
  /-- The router. -/
  router : RouterId
  /-- The links by which it was reached, the last one first. -/
  trail : Route
  deriving DecidableEq, Repr

/-- The state of a search. -/
structure Search where
  /-- For every router whether it was reached. -/
  reached : Array Bool
  /-- The reached routers that were not left yet, the one reached first in front. -/
  waiting : List Reached
  deriving DecidableEq, Repr

variable {α : Type} (t : Topology α)

/-- Follows the links that leave a router, one after the other. -/
def explore (here : Reached) : List LinkId → Search → Attempt α Search
  | [], s => .ok s
  | l :: links, s => do
    let next := (← t.link l).sink
    if ← Attempt.entry s.reached next then
      explore here links s
    else
      explore here links
        { reached := s.reached.setIfInBounds next.index true
          waiting := s.waiting ++ [⟨next, l :: here.trail⟩] }

/-- Leaves one waiting router after the other until the sink is in front or no router waits. -/
def search (sink : RouterId) : Nat → Search → Attempt α (Option Route)
  | fuel, s =>
    match s.waiting with
    | [] => .ok none
    | here :: waiting =>
      if here.router = sink then
        .ok (some here.trail.reverse)
      else
        match fuel with
        | 0 => Attempt.crash .stepsExhausted
        | fuel + 1 => do
          let links ← t.outgoing here.router
          let s ← explore t here links { s with waiting }
          search sink fuel s

/-- A search that has reached nothing but its source. -/
def Search.start (source : RouterId) : Search :=
  { reached := (Array.replicate t.routers.size false).setIfInBounds source.index true
    waiting := [⟨source, []⟩] }

/-- A route with the fewest links. It is empty when both ends are the same router. -/
def route (source sink : RouterId) : Attempt α Route :=
  if source = sink then
    .ok []
  else do
    let _ ← t.router source
    match ← search t sink t.routers.size (.start t source) with
    | some route => return route
    | none => Attempt.fail (.routingFailed .fewestHops source sink .unreachable)

end FewestHops

end NetOnChip
