import NetOnChip.Network

/-!
# Routing with the least latency

A search that always settles the waiting router with the least latency from the source. The latency
of a route counts every link on it and every router that it enters. Routers that are equally far
are settled in the order of their identifiers.

For every router that waits the search keeps one candidate: the best route found so far. A settled
router is not looked at again, so at most as many routers are settled as there are; that number
bounds the recursion in `search`. A search that wanted to settle another one would end with a fault,
and not as if there was no route.
-/

namespace NetOnChip

namespace LeastLatency

variable {α : Type} [Scalar α]

/-- The best route found so far to a router that is not settled yet. -/
structure Candidate (α : Type) where
  /-- The router. -/
  router : RouterId
  /-- The latency of the route. -/
  latency : α
  /-- The links of the route, the last one first. -/
  trail : Route
  deriving Repr

/-- Whether a candidate is settled before another one. -/
def Candidate.precedes (c d : Candidate α) : Bool :=
  (Scalar.order c.latency d.latency).then (compare c.router.index d.router.index) = .lt

/-- The state of a search. -/
structure Search (α : Type) where
  /-- For every router whether it was settled. -/
  settled : Array Bool
  /-- The candidates for routers that were reached and not settled; one for each of them. -/
  waiting : List (Candidate α)
  deriving Repr

/-- Takes out the candidate that is settled next. -/
def takeNext : List (Candidate α) → Option (Candidate α × List (Candidate α))
  | [] => none
  | c :: waiting =>
    match takeNext waiting with
    | none => some (c, [])
    | some (d, others) => if d.precedes c then some (d, c :: others) else some (c, waiting)

/-- Adds a candidate, unless the one already waiting for its router is as good. A candidate that is
infinitely far, or in no order with the others, is never added. -/
def offer (c : Candidate α) : List (Candidate α) → List (Candidate α)
  | [] => if c.latency < Scalar.infinity then [c] else []
  | d :: waiting =>
    if d.router = c.router then
      if c.latency < d.latency then c :: waiting else d :: waiting
    else
      d :: offer c waiting

variable (t : Topology α)

/-- Follows the links that leave a router that was just settled, one after the other. -/
def explore (here : Candidate α) : List LinkId → Search α → Attempt α (Search α)
  | [], s => .ok s
  | l :: links, s => do
    let link ← t.link l
    if ← Attempt.entry s.settled link.sink then
      explore here links s
    else
      let next ← t.router link.sink
      let c := ⟨link.sink, here.latency + link.latency + next.latency, l :: here.trail⟩
      explore here links { s with waiting := offer c s.waiting }

/-- Settles one waiting router after the other until the sink is next or no router waits. -/
def search (sink : RouterId) : Nat → Search α → Attempt α (Option Route)
  | fuel, s =>
    match takeNext s.waiting with
    | none => .ok none
    | some (here, waiting) =>
      if here.router = sink then
        .ok (some here.trail.reverse)
      else
        match fuel with
        | 0 => Attempt.crash .stepsExhausted
        | fuel + 1 => do
          let links ← t.outgoing here.router
          let s ← explore t here links
            { settled := s.settled.setIfInBounds here.router.index true, waiting }
          search sink fuel s

/-- A search in which only the source waits. -/
def Search.start (source : RouterId) : Search α :=
  { settled := Array.replicate t.routers.size false
    waiting := [⟨source, 0, []⟩] }

/-- A route with the least latency. It is empty when both ends are the same router. -/
def route (source sink : RouterId) : Attempt α Route :=
  if source = sink then
    .ok []
  else do
    let _ ← t.router source
    match ← search t sink t.routers.size (.start t source) with
    | some route => return route
    | none => Attempt.fail (.routingFailed .leastLatency source sink .unreachable)

end LeastLatency

end NetOnChip
