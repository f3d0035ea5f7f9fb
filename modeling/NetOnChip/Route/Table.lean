import NetOnChip.Network
import NetOnChip.Traffic

/-!
# Route tables

A route table holds the current route of every flow. Routes are only ever replaced as a whole.
Beside the routes the table keeps, for every link, the flows that cross it in the order of their
identifiers, each with the number of times that its route takes the link.

From these crossings the usage of a link can be added up from zero, the lowest flow first
(`settledUsage`). That is the order in which the flows are charged when they are routed for the
first time, so the sum does not depend on the moves that were made since.
-/

namespace NetOnChip

/-- The flows that cross a link, lowest first, with the number of times each crosses it. -/
abbrev Crossings := List (FlowId × Nat)

namespace Crossings

/-- One more crossing by a flow. -/
def cross (f : FlowId) : Crossings → Crossings
  | [] => [(f, 1)]
  | (g, n) :: others =>
    if f.index < g.index then (f, 1) :: (g, n) :: others
    else if g = f then (g, n + 1) :: others
    else (g, n) :: cross f others

/-- One crossing less by a flow, which is no longer listed when none is left. -/
def uncross (f : FlowId) : Crossings → Crossings
  | [] => []
  | (g, n) :: others =>
    if g = f then
      if n ≤ 1 then others else (g, n - 1) :: others
    else
      (g, n) :: uncross f others

end Crossings

/-- The sum with a bandwidth added a number of times. -/
def addTimes {α : Type} [Add α] (bandwidth : α) : Nat → α → α
  | 0, sum => sum
  | n + 1, sum => addTimes bandwidth n (sum + bandwidth)

/-- The current route of every flow. -/
structure RouteTable where
  /-- The routes, by flow. -/
  routes : Array Route
  /-- The crossings, by link. -/
  crossings : Array Crossings
  deriving DecidableEq, Repr

namespace RouteTable

variable {α : Type} (t : RouteTable)

/-- A table of empty routes for a number of flows and links. -/
def empty (flows links : Nat) : RouteTable :=
  ⟨Array.replicate flows [], Array.replicate links []⟩

/-- A table of empty routes for a number of flows and links, unless they are too many. -/
def ofSize (flows links : Nat) : Attempt α RouteTable :=
  if flows < tableLimit ∧ links < tableLimit then
    .ok (.empty flows links)
  else
    Attempt.crash .tableTooLarge

/-- The number of flows. -/
def size : Nat :=
  t.routes.size

/-- The route of a flow. -/
def route (f : FlowId) : Attempt α Route :=
  Attempt.entry t.routes f

/-- The flows that cross a link, lowest first, with the number of times each crosses it. -/
def flowsOn (l : LinkId) : Attempt α Crossings :=
  Attempt.entry t.crossings l

/-- Changes the crossings of every link of a route in turn. -/
def alongRoute (change : Crossings → Crossings) :
    Route → Array Crossings → Attempt α (Array Crossings)
  | [], table => .ok table
  | l :: route, table => do
    let c ← Attempt.entry table l
    alongRoute change route (table.setIfInBounds l.index (change c))

/-- Stores the route of a flow and gives back the route that it replaces. -/
def replace (f : FlowId) (route : Route) : Attempt α (Route × RouteTable) := do
  let old ← t.route f
  let without ← alongRoute (Crossings.uncross f) old t.crossings
  let crossings ← alongRoute (Crossings.cross f) route without
  return (old, ⟨t.routes.setIfInBounds f.index route, crossings⟩)

/-- Takes the route of a flow out and leaves an empty one. -/
def take (f : FlowId) : Attempt α (Route × RouteTable) :=
  t.replace f []

/-- The bandwidth of the flows that cross a link, added up from zero, the lowest flow first. -/
def settledUsage [Scalar α] (traffic : Traffic α) (l : LinkId) : Attempt α α := do
  let c ← t.flowsOn l
  c.foldlM (fun sum (f, n) ↦ do return addTimes (← traffic.flow f).bandwidth n sum) 0

end RouteTable

end NetOnChip
