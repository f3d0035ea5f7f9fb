/-!
# Names of routing algorithms

How the algorithms route is the matter of `NetOnChip.Routing`.
-/

namespace NetOnChip

/-- The rules by which a flow may be routed. -/
inductive Algorithm where
  /-- A route with the fewest links. -/
  | fewestHops
  /-- Along the row to the column of the sink, then along that column. -/
  | dimensionOrder
  /-- A route with the least latency. -/
  | leastLatency
  deriving DecidableEq, Repr

/-- The name by which an algorithm is selected and reported. -/
def Algorithm.name : Algorithm → String
  | .fewestHops => "bfs_routing"
  | .dimensionOrder => "xy_routing"
  | .leastLatency => "min_latency_routing"

/-- All algorithms, in the order in which they are offered. -/
def Algorithm.all : List Algorithm :=
  [.fewestHops, .dimensionOrder, .leastLatency]

/-- The algorithm with a given name. -/
def Algorithm.ofName? (name : String) : Option Algorithm :=
  all.find? fun a ↦ a.name = name

/-- **Names identify algorithms.** -/
theorem Algorithm.ofName?_name (a : Algorithm) : ofName? a.name = some a := by
  cases a <;> decide

end NetOnChip
