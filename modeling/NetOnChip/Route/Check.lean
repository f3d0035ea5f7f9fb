import NetOnChip.Network
import NetOnChip.Placement
import NetOnChip.Traffic

/-!
# Checking routes and usages

`checkRoutes` accepts a table of routes when every route leads, link by link, from the router under
the source block of its flow to the router under the sink block. `checkUsage` accepts a network when
the usage of every link is close to the demand of the flows that are routed over it.

Both report the first of several problems, by flow and by link.
-/

namespace NetOnChip

variable {α : Type}

/-- The router under a block. -/
def placedRouter (t : Topology α) (p : Placement) (b : BlockId) : Attempt α RouterId := do
  let tile ← p.locate b
  match t.routerAt? tile with
  | some r => return r
  | none => Attempt.fail (.noRouterAt b tile)

/-! ### Routes -/

/-- Looks for the first link of a route that does not start where the link before it ends. -/
def checkChain (t : Topology α) (f : FlowId) : Route → Attempt α Unit
  | l :: k :: route => do
    let here := (← t.link l).sink
    let there := (← t.link k).source
    if here = there then
      checkChain t f (k :: route)
    else
      Attempt.fail (.invalidRoute f (.broken k l))
  | _ => .ok ()

/-- Checks that a route leads from one router to another. -/
def checkRouteBetween (t : Topology α) (f : FlowId) (source sink : RouterId) (route : Route) :
    Attempt α Unit :=
  match route.find? fun l ↦ t.links.size ≤ l.index with
  | some l => Attempt.fail (.invalidRoute f (.noSuchLink l))
  | none =>
    match route.head?, route.getLast? with
    | some first, some last => do
      let start := (← t.link first).source
      if start = source then
        checkChain t f route
        let stop := (← t.link last).sink
        if stop = sink then
          return ()
        else
          Attempt.fail (.invalidRoute f (.endsAt stop sink))
      else
        Attempt.fail (.invalidRoute f (.startsAt start source))
    | _, _ =>
      if source = sink then
        .ok ()
      else
        Attempt.fail (.invalidRoute f (.emptyBetween source sink))

/-- Checks that a route serves a flow. -/
def checkRoute (t : Topology α) (traffic : Traffic α) (p : Placement) (f : FlowId)
    (route : Route) : Attempt α Unit := do
  let flow ← traffic.flow f
  let source ← placedRouter t p flow.source
  let sink ← placedRouter t p flow.sink
  checkRouteBetween t f source sink route

/-- Checks that every flow has a route that serves it. -/
def checkRoutes (t : Topology α) (traffic : Traffic α) (routes : Array Route) (p : Placement) :
    Attempt α Unit :=
  if routes.size = traffic.flows.size then
    (Id.range routes.size).forM fun f ↦ do
      let route ← Attempt.entry routes f
      checkRoute t traffic p f route
  else
    let f : FlowId := ⟨min routes.size traffic.flows.size⟩
    Attempt.fail (.invalidRoute f (.wrongCount routes.size traffic.flows.size))

/-! ### Usages -/

variable [Scalar α]

/-- Adds a bandwidth to the usage of every link of a route in turn. A link that the route takes
twice comes up twice. -/
def addAlong (bandwidth : α) : Route → Array α → Attempt α (Array α)
  | [], usage => .ok usage
  | l :: route, usage => do
    let u ← Attempt.entry usage l
    addAlong bandwidth route (usage.setIfInBounds l.index (u + bandwidth))

/-- The usage of every link that a table of routes implies. All routes are followed once, from the
lowest flow on, and every link that comes up has the bandwidth of the flow added to it. -/
def expectedUsage (t : Topology α) (traffic : Traffic α) (routes : Array Route) :
    Attempt α (List α) := do
  let usage ← (traffic.flows.toList.zip routes.toList).foldlM
    (fun usage (flow, route) ↦ addAlong flow.bandwidth route usage)
    (Array.replicate t.links.size 0)
  return usage.toList

/-- Looks for the first link whose usage is too far from what it should be. The allowed difference
is relative to the usage that it should have, so an unused link has to have exactly none. -/
def checkUsages (tolerance : α) : List (LinkId × α × α) → Attempt α Unit
  | [] => .ok ()
  | (l, tracked, expected) :: others =>
    if tolerance * Scalar.magnitude expected < Scalar.magnitude (tracked - expected) then
      Attempt.fail (.usageMismatch l tracked expected)
    else
      checkUsages tolerance others

/-- Checks the usage of every link against the routes that cross it. -/
def checkUsage (n : Network α) (traffic : Traffic α) (routes : Array Route) (tolerance : α) :
    Attempt α Unit := do
  let expected ← expectedUsage n.topology traffic routes
  checkUsages tolerance ((Id.range n.usage.size).zip (n.usage.toList.zip expected))

end NetOnChip
