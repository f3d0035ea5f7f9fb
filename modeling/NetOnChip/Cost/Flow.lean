import NetOnChip.Network
import NetOnChip.Settings
import NetOnChip.Traffic

/-!
# The cost of a flow

A flow costs bandwidth on every link of its route, and it costs latency. Latency beyond the limit of
the flow, its *overrun*, is weighted on its own.
-/

namespace NetOnChip

variable {α : Type} [Scalar α]

/-- The two terms of a cost. -/
structure CostTerms (α : Type) where
  /-- Bandwidth, once for every link that carries it. -/
  aggregateBandwidth : α
  /-- Weighted latency. -/
  latency : α
  deriving DecidableEq, Repr

/-- No cost. -/
instance : Zero (CostTerms α) := ⟨⟨0, 0⟩⟩

/-- The time from one end of a route to the other: every link on it and every router, the one at
the source included. An empty route takes no time. -/
def Topology.routeLatency (t : Topology α) : Route → Attempt α α
  | [] => .ok 0
  | first :: route => do
    let start ← t.router (← t.link first).source
    (first :: route).foldlM
      (fun sum l ↦ do
        let link ← t.link l
        let next ← t.router link.sink
        return sum + (link.latency + next.latency))
      start.latency

namespace Flow

variable (f : Flow α)

/-- The bandwidth of a flow on all links of its route, scaled by the priority of the flow. -/
def aggregateBandwidthCost (route : Route) : α :=
  (route.length : α) * f.bandwidth * f.priority

/-- How far a latency lies beyond the limit of a flow. -/
def overrun (latency : α) : α :=
  Scalar.larger (latency - f.maxLatency) 0

/-- The weighted sum of a latency and its overrun, scaled by the priority of the flow. -/
def latencyCost (w : Weights α) (latency : α) : α :=
  (w.overrun * f.overrun latency + w.latency * latency) * f.priority

/-- Both cost terms of a flow on a route. -/
def costTerms (w : Weights α) (t : Topology α) (route : Route) : Attempt α (CostTerms α) := do
  let latency ← t.routeLatency route
  return ⟨f.aggregateBandwidthCost route, f.latencyCost w latency⟩

end Flow

end NetOnChip
