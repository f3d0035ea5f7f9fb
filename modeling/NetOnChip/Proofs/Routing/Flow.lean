import NetOnChip.Proofs.Route.Ledger
import NetOnChip.Proofs.Routing.DimensionOrder
import NetOnChip.Proofs.Routing.FewestHops
import NetOnChip.Proofs.Routing.LeastLatency

/-!
# Routes of flows

Whatever the algorithm, the route of a flow is a walk between the routers under its blocks
(`routeFlow_ensures`), if the topology is well formed and closed. In particular it takes existing
links only, so routing a flow again ends with a route or with an error.
-/

namespace NetOnChip

variable {α : Type} [Scalar α] {t : Topology α} {traffic : Traffic α} {a : Algorithm}
  {p : Placement} {f : FlowId}

/-- **Every algorithm** ends with a walk from the source to the sink or with an error. -/
theorem Algorithm.route_ensures (hw : t.WellFormed) (hc : t.Closed) {source sink : RouterId}
    (hsource : source.index < t.routers.size) (hsink : sink.index < t.routers.size) :
    (a.route t source sink).Ensures fun route ↦ t.Walk source route sink := by
  cases a with
  | fewestHops => exact FewestHops.route_ensures hw hc hsource
  | dimensionOrder => exact DimensionOrder.route_ensures hw hc hsource hsink
  | leastLatency => exact LeastLatency.route_ensures hw hc hsource

omit [Scalar α] in
theorem placedRouter_ensures (b : BlockId) :
    (placedRouter t p b).Ensures fun r ↦
      placedRouter t p b = .ok r ∧ r.index < t.routers.size := by
  cases htile : p.tile? b with
  | none =>
    simp only [placedRouter, Placement.locate, htile]
    trivial
  | some tile =>
    cases hr : t.routerAt? tile with
    | none =>
      simp only [placedRouter, Placement.locate, htile, Attempt.ok_bind, hr]
      trivial
    | some r =>
      simp only [placedRouter, Placement.locate, htile, Attempt.ok_bind, hr]
      exact ⟨rfl, Topology.routerAt?_lt hr⟩

/-- A route that leads from the router under the source block of a flow to the one under its sink
block. -/
def Connects (t : Topology α) (traffic : Traffic α) (p : Placement) (f : FlowId) (route : Route) :
    Prop :=
  ∃ flow source sink, traffic.flow f = .ok flow ∧ placedRouter t p flow.source = .ok source ∧
    placedRouter t p flow.sink = .ok sink ∧ t.Walk source route sink

/-- **Routing a flow** ends with a route that connects its blocks or with an error. -/
theorem routeFlow_ensures (hw : t.WellFormed) (hc : t.Closed) (hf : f.index < traffic.flows.size) :
    (routeFlow traffic a t p f).Ensures (Connects t traffic p f) := by
  refine (Attempt.ensures_entry hf).bind fun flow hflow ↦ ?_
  refine (placedRouter_ensures flow.source).bind fun source ⟨hsource, hsource'⟩ ↦ ?_
  refine (placedRouter_ensures flow.sink).bind fun sink ⟨hsink, hsink'⟩ ↦ ?_
  refine (a.route_ensures hw hc hsource' hsink').mono fun route hroute ↦ ?_
  exact ⟨flow, source, sink, Attempt.entry_eq_ok_iff.2 hflow, hsource, hsink, hroute⟩

omit [Scalar α] in
theorem Connects.lt_links {route : Route} (h : Connects t traffic p f route) :
    ∀ l ∈ route, l.index < t.links.size := by
  obtain ⟨_, _, _, _, _, _, hwalk⟩ := h
  exact hwalk.lt_links

namespace Ledger

/-- The new route of a flow takes existing links if its old one does. -/
theorem newRoute_lt_links (hw : t.WellFormed) (hc : t.Closed) (hf : f.index < traffic.flows.size)
    {old : Route} (hold : ∀ l ∈ old, l.index < t.links.size) :
    ∀ l ∈ newRoute traffic a t p f old, l.index < t.links.size := by
  have h := routeFlow_ensures (a := a) (p := p) hw hc hf
  unfold newRoute
  cases hroute : routeFlow traffic a t p f with
  | ok route => exact (h.of_eq_ok hroute).lt_links
  | error e => exact hold

/-- The routes for a placement take existing links. -/
theorem admissible_routesFor (hw : t.WellFormed) (hc : t.Closed) :
    Admissible traffic t (routesFor traffic a t p) where
  size_eq := size_routesFor
  lt_links {f route} hroute := by
    have hf : f.index < traffic.flows.size := by
      simpa using (Array.getElem?_eq_some_iff.1 hroute).1
    rw [getElem?_routesFor hf, Option.some.injEq] at hroute
    subst hroute
    exact newRoute_lt_links hw hc hf (by simp)

end Ledger

end NetOnChip
