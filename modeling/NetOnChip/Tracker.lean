import NetOnChip.Cost.Total
import NetOnChip.Route.Ledger

/-!
# Trackers

A tracker keeps the routes, link usages and costs of all flows up to date while blocks are moved.
It does not know where the blocks are: every operation that has to route is given a placement.

The flows are routed once (`route`). After that a move is tried in two steps. `evaluate` routes the
flows of the moved blocks again, for the placement after the move, and answers the change of the
cost. Then the move is either accepted (`commit`), or it is taken back: the blocks return to their
old tiles, and `revert` routes the same flows again.

For every flow the tracker keeps the cost terms of its route, and beside them the proposed ones of
the move that is being tried. The flows that this move routed again are listed in `affected`, in the
order in which they were routed. A flow is *marked* before it is routed again, so that it is routed
once for each move; the mark stays even if no route is found.
-/

namespace NetOnChip

variable {α : Type} [Scalar α]

/-- The routes, link usages and costs of all flows. -/
structure Tracker (α : Type) where
  /-- The flows. -/
  traffic : Traffic α
  /-- How they are routed. -/
  algorithm : Algorithm
  /-- How their costs are weighted. -/
  weights : Weights α
  /-- Their routes, and what is charged for them. -/
  ledger : Ledger α
  /-- The cost terms of every flow. -/
  current : Array (CostTerms α)
  /-- The cost terms that every flow had in the last move that routed it again. -/
  proposed : Array (CostTerms α)
  /-- The flows that the present move has routed again. -/
  affected : List FlowId
  /-- The flows that the present move does not route another time. -/
  marked : List FlowId
  /-- Whether the flows were routed. -/
  isRouted : Bool
  deriving Repr

namespace Tracker

/-- A tracker for flows that are not routed yet. -/
def start (n : Network α) (traffic : Traffic α) (a : Algorithm) (w : Weights α) : Tracker α where
  traffic := traffic
  algorithm := a
  weights := w
  ledger := ⟨n, .empty traffic.flows.size n.topology.links.size⟩
  current := Array.replicate traffic.flows.size 0
  proposed := Array.replicate traffic.flows.size 0
  affected := []
  marked := []
  isRouted := false

variable (t : Tracker α)

/-- The routers and links with their usage. -/
def network : Network α :=
  t.ledger.network

/-- The routers and links. -/
def topology : Topology α :=
  t.network.topology

/-- The route of a flow. -/
def routeOf (f : FlowId) : Attempt α Route :=
  t.ledger.table.route f

/-- Requires that the flows were routed. -/
def ensureRouted : Attempt α Unit :=
  if t.isRouted then .ok () else Attempt.fail .notInitialized

/-! ### Costs from scratch -/

/-- The aggregate bandwidth cost of a flow on its present route. -/
def aggregateBandwidthCost (f : FlowId) : Attempt α α := do
  let flow ← t.traffic.flow f
  let route ← t.routeOf f
  return flow.aggregateBandwidthCost route

/-- The latency cost of a flow on its present route. -/
def latencyCost (f : FlowId) : Attempt α α := do
  let flow ← t.traffic.flow f
  let route ← t.routeOf f
  return flow.latencyCost t.weights (← t.topology.routeLatency route)

/-- Both cost terms of a flow on its present route. -/
def costTerms (f : FlowId) : Attempt α (CostTerms α) := do
  let flow ← t.traffic.flow f
  let route ← t.routeOf f
  flow.costTerms t.weights t.topology route

/-- The sum of scalars, from zero on and in order. -/
def total (costs : List α) : α :=
  costs.foldl (· + ·) 0

/-- Both cost terms of all flows on their present routes. Nothing is routed or stored. -/
def recompute : Attempt α (CostTerms α) := do
  let terms ← t.traffic.flowIds.mapM t.costTerms
  return ⟨total (terms.map (·.aggregateBandwidth)), total (terms.map (·.latency))⟩

/-- Takes the aggregate bandwidth cost of every flow from its present route, and adds them up. -/
def refreshAggregateBandwidth : Attempt α (α × Tracker α) := do
  let costs ← t.traffic.flowIds.mapM t.aggregateBandwidthCost
  let current := (t.current.toList.zip costs).map fun (terms, cost) ↦
    { terms with aggregateBandwidth := cost }
  return (total costs, { t with current := current.toArray })

/-- Takes the latency cost of every flow from its present route, and adds them up. -/
def refreshLatency : Attempt α (α × Tracker α) := do
  let costs ← t.traffic.flowIds.mapM t.latencyCost
  let current := (t.current.toList.zip costs).map fun (terms, cost) ↦ { terms with latency := cost }
  return (total costs, { t with current := current.toArray })

/-- Takes both cost terms of every flow from its present route, and adds them up. -/
def refresh : Attempt α (CostTerms α × Tracker α) := do
  let (aggregateBandwidth, t) ← t.refreshAggregateBandwidth
  let (latency, t) ← t.refreshLatency
  return (⟨aggregateBandwidth, latency⟩, t)

/-- Takes the network terms of the cost of a placement from the present routes. -/
def loadCosts (c : Costs α) : Attempt α (Costs α × Tracker α) := do
  t.ensureRouted
  let (terms, t) ← t.refresh
  return ({ c with aggregateBandwidth := terms.aggregateBandwidth, latency := terms.latency }, t)

/-! ### Routing -/

/-- Routes all flows for the first time, charges the routes, and adds up their costs. If a flow
cannot be routed then all routes and usages are cleared. -/
def route (p : Placement) : Outcome (Tracker α) α (CostTerms α) :=
  if t.isRouted then
    ⟨t, Attempt.fail .alreadyInitialized⟩
  else
    match t.ledger.chargeAll t.traffic t.algorithm p t.traffic.flowIds with
    | .ok ledger => .ofAttempt t ({ t with ledger, isRouted := true } : Tracker α).refresh
    | .error e => ⟨{ t with ledger := t.ledger.cleared t.traffic.flows.size }, .error e⟩

/-- Routes one flow and stores the route. Usages stay as they are. -/
def storeRoute (f : FlowId) (p : Placement) : Attempt α (Route × Tracker α) := do
  let route ← routeFlow t.traffic t.algorithm t.topology p f
  let (_, table) ← t.ledger.table.replace f route
  return (route, { t with ledger := { t.ledger with table } })

/-- Moves one flow from its present route to a new one. -/
def reroute (f : FlowId) (p : Placement) : Outcome (Tracker α) α Unit :=
  let o := t.ledger.reroute t.traffic t.algorithm p f
  ⟨{ t with ledger := o.state }, o.result⟩

/-- Routes flows again, except the marked ones, and counts them. -/
def rerouteUnmarked (p : Placement) : List FlowId → Tracker α → Outcome (Tracker α) α Nat
  | [], t => ⟨t, .ok 0⟩
  | f :: flows, t =>
    if f ∈ t.marked then
      rerouteUnmarked p flows t
    else
      (({ t with marked := f :: t.marked } : Tracker α).reroute f p).andThen fun _ t ↦
        (rerouteUnmarked p flows { t with affected := t.affected ++ [f] }).andThen fun n t ↦
          ⟨t, .ok (n + 1)⟩

/-- Routes the flows of a block again, except the marked ones, and counts them. -/
def rerouteBlock (b : BlockId) (p : Placement) : Outcome (Tracker α) α Nat :=
  rerouteUnmarked p (t.traffic.flowsOf b) t

/-- Routes the flows of several blocks again, each flow once, and counts them. -/
def rerouteBlocks (p : Placement) : List BlockId → Tracker α → Outcome (Tracker α) α Nat
  | [], t => ⟨t, .ok 0⟩
  | b :: blocks, t =>
    (t.rerouteBlock b p).andThen fun n t ↦
      (rerouteBlocks p blocks t).andThen fun m t ↦ ⟨t, .ok (n + m)⟩

/-- No flow is affected or marked. -/
def settled : Tracker α :=
  { t with affected := [], marked := [] }

/-- Routes the flows of the blocks of a move again. -/
def rerouteMoved (m : Move) (p : Placement) : Outcome (Tracker α) α Nat :=
  rerouteBlocks p (m.map (·.block)) t.settled

/-! ### Trying a move -/

/-- Takes the proposed cost terms of flows from their present routes, and adds up how they differ
from the current ones. -/
def propose : List FlowId → Delta α → Tracker α → Attempt α (Delta α × Tracker α)
  | [], d, t => .ok (d, t)
  | f :: flows, d, t => do
    let new ← t.costTerms f
    let old ← Attempt.entry t.current f
    let d :=
      { d with
        aggregateBandwidth :=
          d.aggregateBandwidth + (new.aggregateBandwidth - old.aggregateBandwidth)
        latency := d.latency + (new.latency - old.latency) }
    propose flows d { t with proposed := t.proposed.setIfInBounds f.index new }

/-- Routes the flows of a move again, for the placement after it, and answers how their cost
changes. -/
def evaluate (m : Move) (p : Placement) : Outcome (Tracker α) α (Delta α) :=
  (⟨t, t.ensureRouted⟩ : Outcome (Tracker α) α Unit).andThen fun _ t ↦
    (t.rerouteMoved m p).andThen fun n t ↦
      .ofAttempt t (t.propose t.affected { Delta.none with rerouted := n })

/-- Makes the proposed cost terms of some flows the current ones. -/
def adopt (flows : List FlowId) : Tracker α :=
  { t with
    current := flows.foldl
      (fun current f ↦
        match t.proposed[f.index]? with
        | some terms => current.setIfInBounds f.index terms
        | none => current)
      t.current }

/-- Accepts the move evaluated last. The proposed cost terms of the flows that it affected become
the current ones, as far as the change counts them, and the change is added to the costs. -/
def commit (d : Delta α) (c : Costs α) : Tracker α × Costs α :=
  ((t.adopt (t.affected.take d.rerouted)).settled,
    { c with
      aggregateBandwidth := c.aggregateBandwidth + d.aggregateBandwidth
      latency := c.latency + d.latency })

/-- Takes a move back whose blocks are on their old tiles again, and counts the flows that it
routes again. -/
def revert (m : Move) (p : Placement) : Outcome (Tracker α) α Nat :=
  (⟨t, t.ensureRouted⟩ : Outcome (Tracker α) α Unit).andThen fun _ t ↦
    (t.rerouteMoved m p).andThen fun n t ↦ ⟨t.settled, .ok n⟩

end Tracker

end NetOnChip
