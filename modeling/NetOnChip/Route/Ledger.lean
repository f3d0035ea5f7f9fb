import NetOnChip.Outcome
import NetOnChip.Route.Check
import NetOnChip.Route.Table
import NetOnChip.Routing

/-!
# Ledgers

A ledger is a network together with a route table: the table says which links the flows take, and
the usage of the network says how much bandwidth is charged for that.

`reroute` moves one flow from its present route to the one that its algorithm finds for a placement.
Taking a bandwidth off a link and adding it again leaves a rounding residue, so every link of the
old and of the new route is *settled* at the end: its usage is set to the sum over the flows that
cross it. A flow that comes back to its old links therefore leaves their usage as it was, bit for
bit. Where no route is found the flow stays on its old route.
-/

namespace NetOnChip

variable {α : Type} [Scalar α]

/-- The route of a flow between the routers under its blocks. -/
def routeFlow (traffic : Traffic α) (a : Algorithm) (t : Topology α) (p : Placement) (f : FlowId) :
    Attempt α Route := do
  let flow ← traffic.flow f
  let source ← placedRouter t p flow.source
  let sink ← placedRouter t p flow.sink
  a.route t source sink

/-- A network, and the routes that it is charged for. -/
structure Ledger (α : Type) where
  /-- The topology with the usage of its links. -/
  network : Network α
  /-- The routes of the flows. -/
  table : RouteTable
  deriving Repr

namespace Ledger

/-- Unused links and empty routes for a topology and a number of flows. -/
def cleared (l : Ledger α) (flows : Nat) : Ledger α where
  network := l.network.resetUsage
  table := .empty flows l.network.topology.links.size

/-- Takes out the route of a flow and takes its bandwidth off the links. -/
def withdraw (traffic : Traffic α) (f : FlowId) (l : Ledger α) : Attempt α (Route × Ledger α) := do
  let flow ← traffic.flow f
  let (old, table) ← l.table.take f
  let network ← l.network.charge .remove flow.bandwidth old
  return (old, ⟨network, table⟩)

/-- Charges a route to the links and stores it. -/
def deposit (traffic : Traffic α) (f : FlowId) (route : Route) (l : Ledger α) :
    Attempt α (Ledger α) := do
  let flow ← traffic.flow f
  let network ← l.network.charge .add flow.bandwidth route
  let (_, table) ← l.table.replace f route
  return ⟨network, table⟩

/-- Sets the usage of every link of a route to the sum over the flows that cross it. -/
def settle (traffic : Traffic α) : Route → Ledger α → Attempt α (Ledger α)
  | [], l => .ok l
  | k :: route, l => do
    let u ← l.table.settledUsage traffic k
    let network ← l.network.setUsage k u
    settle traffic route { l with network }

/-- Routes one flow again. -/
def reroute (traffic : Traffic α) (a : Algorithm) (p : Placement) (f : FlowId) (l : Ledger α) :
    Outcome (Ledger α) α Unit :=
  match l.withdraw traffic f with
  | .error e => ⟨l, .error e⟩
  | .ok (old, bare) =>
    match routeFlow traffic a bare.network.topology p f with
    | .ok new =>
      .ofAttempt l do
        let l ← bare.deposit traffic f new
        let l ← l.settle traffic old
        let l ← l.settle traffic new
        return ((), l)
    | .error e =>
      (Outcome.ofAttempt l do
        let l ← bare.deposit traffic f old
        let l ← l.settle traffic old
        return ((), l)).andThen fun _ l ↦ ⟨l, .error e⟩

/-- Routes flows for the first time, in order, and charges each route once. -/
def chargeAll (traffic : Traffic α) (a : Algorithm) (p : Placement) :
    List FlowId → Ledger α → Attempt α (Ledger α)
  | [], l => .ok l
  | f :: flows, l => do
    let route ← routeFlow traffic a l.network.topology p f
    let (_, table) ← l.table.replace f route
    let flow ← traffic.flow f
    let network ← l.network.charge .add flow.bandwidth route
    chargeAll traffic a p flows ⟨network, table⟩

end Ledger

end NetOnChip
