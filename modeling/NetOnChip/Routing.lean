import NetOnChip.Routing.DimensionOrder
import NetOnChip.Routing.FewestHops
import NetOnChip.Routing.LeastLatency

/-!
# Routing algorithms

An algorithm finds a route between two routers of a topology. It sees nothing else, so the same
question always has the same answer; undoing a rejected move relies on this.
-/

namespace NetOnChip

namespace Algorithm

variable {α : Type} [Scalar α]

/-- The route that an algorithm finds between two routers. -/
def route (a : Algorithm) (t : Topology α) (source sink : RouterId) : Attempt α Route :=
  match a with
  | .fewestHops => FewestHops.route t source sink
  | .dimensionOrder => DimensionOrder.route t source sink
  | .leastLatency => LeastLatency.route t source sink

end Algorithm

end NetOnChip
