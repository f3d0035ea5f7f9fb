import NetOnChip.Decimal.Text
import NetOnChip.Failure.Message
import NetOnChip.Tracker

/-!
# Reports

A report lists the flows, each with its route, and the links, each with its usage.
-/

namespace NetOnChip

namespace Report

variable (t : Tracker Float)

/-- The tiles at the two ends of a link. -/
def ends (link : Link Float) : Attempt Float String := do
  let source ← t.topology.router link.source
  let sink ← t.topology.router link.sink
  return s!"( {source.tile} ) ( {sink.tile} )"

/-- The lines about a link of a route. -/
def hopLine (l : LinkId) : Attempt Float String := do
  let places ← ends t (← t.topology.link l)
  return s!"  + LINK {l} {places}"

/-- The lines about a flow. -/
def flowLines (f : FlowId) : Attempt Float (List String) := do
  let flow ← t.traffic.flow f
  let route ← t.routeOf f
  let hops := route.length
  let bandwidth := Decimal.scientific flow.bandwidth
  let priority := Decimal.render .shortPositional flow.priority
  let latency := Decimal.scientific (← t.topology.routeLatency route)
  let limit :=
    if flow.isConstrained then " MAX_LATENCY " ++ Decimal.scientific flow.maxLatency else ""
  let head := s!"- {flow.name} {flow.source} {flow.sink} BW {bandwidth} PRIORITY {priority} " ++
    s!"HOPS {hops} LATENCY {latency}" ++ limit ++ " ;"
  return head :: (← route.mapM (hopLine t))

/-- The line about a link and its usage. -/
def linkLine (l : LinkId) (link : Link Float) (usage : Float) : Attempt Float String := do
  let places ← ends t link
  let used := Decimal.scientific usage
  let capacity := Decimal.scientific link.bandwidth
  return s!"- {l} {places} USAGE {used} CAPACITY {capacity} ;"

/-- The lines of a report. -/
def lines : Attempt Float (List String) := do
  let rule := t.algorithm.name
  let flows ← t.traffic.flowIds.mapM (flowLines t)
  let links := t.topology.links.size
  let loads ← ((Id.range links).zip t.network.loads).mapM fun (l, link, u) ↦ linkLine t l link u
  return [s!"ROUTING {rule} ;", s!"FLOWS {t.traffic.flows.size} ;"] ++ flows.flatten ++
    ["END FLOWS", s!"LINKS {links} ;"] ++ loads ++ ["END LINKS"]

end Report

end NetOnChip
