import NetOnChip.Proofs.Tracker.Audit
import NetOnChip.Proofs.Tracker.Costs
import NetOnChip.Proofs.Tracker.Start

/-!
# What the route check guards

A topology may have links that lead to routers which do not exist, and a table may name links that
do not exist. An audit looks all of them up. It checks the routes first, and this check looks up no
link before it knows that all links of the route exist (`proper_checkRouteBetween`), so it does not
end with a fault in any topology.

What comes after it looks up more: usages are added to every link of a route, and a latency is taken
from every router on the way. For the links it is enough that they exist. For the routers it is not,
and nothing checks where a link leads. But a route that passed is a walk to the router under a
block, which exists; links leave existing routers; and where a link of the walk ends another one
leaves or the walk is over (`Topology.Walk.sink_lt`). So after the check has passed nothing else can
end with a fault (`checkRoutes_guards`).
-/

namespace NetOnChip

variable {α : Type}

/-! ### The check of the routes -/

section Routes

variable {t : Topology α} {traffic : Traffic α} {routes : Array Route} {p : Placement}
  {f : FlowId} {route : Route} {source sink : RouterId}

/-- A link that exists is found. -/
theorem proper_link {l : LinkId} (h : l.index < t.links.size) : (t.link l).Proper :=
  (Attempt.ensures_entry h).proper

theorem proper_checkChain (h : ∀ l ∈ route, l.index < t.links.size) :
    (checkChain t f route).Proper := by
  induction route with
  | nil => exact Attempt.proper_ok ()
  | cons l route ih =>
    obtain ⟨hl, hrest⟩ := List.forall_mem_cons.1 h
    cases route with
    | nil => exact Attempt.proper_ok ()
    | cons k route =>
      refine (proper_link hl).bind fun here _ ↦ ?_
      refine (proper_link (hrest k List.mem_cons_self)).bind fun next _ ↦ ?_
      exact Attempt.proper_guard fun _ ↦ ih hrest

/-- **The check of a route** looks up links only if all of them exist. -/
theorem proper_checkRouteBetween : (checkRouteBetween t f source sink route).Proper := by
  rw [checkRouteBetween]
  cases hover : route.find? fun l ↦ t.links.size ≤ l.index with
  | some l => exact Attempt.proper_error _
  | none =>
    have hlinks : ∀ l ∈ route, l.index < t.links.size := by
      simpa [List.find?_eq_none] using hover
    cases route with
    | nil => exact Attempt.proper_guard fun _ ↦ Attempt.proper_ok ()
    | cons l route =>
      rw [List.head?_cons, List.getLast?_eq_some_getLast (List.cons_ne_nil l route)]
      refine (proper_link (hlinks l List.mem_cons_self)).bind fun first _ ↦ ?_
      refine Attempt.proper_guard fun _ ↦ (proper_checkChain hlinks).bind fun _ _ ↦ ?_
      refine (proper_link (hlinks _ (List.getLast_mem _))).bind fun last _ ↦ ?_
      exact Attempt.proper_guard fun _ ↦ Attempt.proper_ok ()

/-- **The check of all routes** does not end with a fault, whatever the topology and the table. -/
theorem proper_checkRoutes (t : Topology α) (traffic : Traffic α) (routes : Array Route)
    (p : Placement) : (checkRoutes t traffic routes p).Proper := by
  rw [checkRoutes]
  refine Attempt.proper_guard fun hsize ↦ Attempt.proper_forM fun f hf ↦ ?_
  have hf' : f.index < routes.size := Id.mem_range.1 hf
  refine (Attempt.ensures_entry hf').proper.bind fun route _ ↦ ?_
  refine (Attempt.ensures_entry (hsize ▸ hf')).proper.bind fun flow _ ↦ ?_
  refine (placedRouter_ensures flow.source).proper.bind fun source _ ↦ ?_
  refine (placedRouter_ensures flow.sink).proper.bind fun sink _ ↦ ?_
  exact proper_checkRouteBetween

end Routes

/-! ### What is looked up after it -/

section Guarded

variable [Scalar α] {t : Topology α} {traffic : Traffic α} {routes : Array Route} {p : Placement}
  {f : FlowId} {route : Route}

/-- **A route that connects blocks** has a latency, although links may lead nowhere. -/
theorem Connects.exists_latency (h : Connects t traffic p f route) (hw : t.WellFormed) :
    ∃ latency, t.routeLatency route = .ok latency := by
  obtain ⟨flow, source, sink, -, -, hsink, hwalk⟩ := h
  have hlt : sink.index < t.routers.size := ((placedRouter_ensures flow.sink).of_eq_ok hsink).2
  obtain ⟨latency, hlatency, -⟩ := Topology.routeLatency_yields_of_sinks hw (P := fun _ ↦ True)
    trivial (fun _ _ ↦ trivial) (fun _ _ ↦ trivial) (fun _ _ ↦ trivial) hwalk.lt_links
    (hwalk.sink_lt hw hlt)
  exact ⟨latency, hlatency⟩

theorem proper_checkUsages (tolerance : α) (compared : List (LinkId × α × α)) :
    (checkUsages tolerance compared).Proper := by
  induction compared with
  | nil => exact Attempt.proper_ok ()
  | cons e compared ih =>
    obtain ⟨l, tracked, expected⟩ := e
    rw [checkUsages]
    split
    · exact Attempt.proper_error _
    · exact ih

/-- **The check of the usages** does not end with a fault after that of the routes has passed. -/
theorem proper_checkUsage {n : Network α} (h : Admissible traffic n.topology routes)
    (tolerance : α) : (checkUsage n traffic routes tolerance).Proper := by
  rw [checkUsage, expectedUsage_eq h, Attempt.ok_bind]
  exact proper_checkUsages _ _

/-- The check of a cost term looks up nothing. -/
theorem CostTerm.proper_check (term : CostTerm) (tolerance tracked recomputed : α) :
    (term.check tolerance tracked recomputed).Proper := by
  show (if term.allowed tolerance tracked recomputed < _ then Attempt.fail _ else .ok () :
    Attempt α Unit).Proper
  split
  · exact Attempt.proper_error _
  · exact Attempt.proper_ok ()

/-- **Recomputing** the costs succeeds after the check of the routes has passed. -/
theorem Tracker.exists_recompute {x : Tracker α} (hw : x.topology.WellFormed)
    (h : checkRoutes x.topology x.traffic x.ledger.table.routes p = .ok ()) :
    ∃ terms, x.recompute = .ok terms := by
  obtain ⟨hsize, hconnects⟩ := checkRoutes_eq_ok_iff.1 h
  have hcosts : ∀ f ∈ x.traffic.flowIds, ∃ terms, x.costTerms f = .ok terms := by
    intro f hf
    have hlt : f.index < x.traffic.flows.size := Id.mem_range.1 hf
    have hroute := Array.getElem?_eq_getElem (hsize.symm ▸ hlt)
    obtain ⟨latency, hlatency⟩ := (hconnects hroute).exists_latency hw
    rw [costTerms_eq (Array.getElem?_eq_getElem hlt) hroute, Flow.costTerms, hlatency]
    exact ⟨_, rfl⟩
  have : Nonempty (CostTerms α) := ⟨0⟩
  choose! v hv using hcosts
  exact ⟨_, recompute_eq hv⟩

/-- **An audit** of any tracker on a built topology does not end with a fault. -/
theorem Tracker.proper_audit {x : Tracker α} (hw : x.topology.WellFormed) (c : Costs α)
    (tolerance : α) : (x.audit c tolerance p).Proper := by
  rw [audit]
  refine (Attempt.proper_guard fun _ ↦ Attempt.proper_ok ()).bind fun _ _ ↦ ?_
  refine (proper_checkRoutes _ _ _ _).bind fun _ hroutes ↦ ?_
  refine (proper_checkUsage (admissible_of_checkRoutes hroutes) tolerance).bind fun _ _ ↦ ?_
  obtain ⟨terms, hterms⟩ := Tracker.exists_recompute hw hroutes
  rw [hterms, Attempt.ok_bind]
  exact (CostTerm.proper_check _ _ _ _).bind fun _ _ ↦ CostTerm.proper_check _ _ _ _

/-- **What the route check guards.** In every topology that was built, links that lead nowhere
included, the check of the routes does not end with a fault, whatever links the table names. If it
passes then the usages that the routes imply can be calculated and compared with any tracked ones,
and every route has a latency, so every flow on it has both of its cost terms. So an audit does not
end with a fault either. -/
theorem checkRoutes_guards {t : Topology α} (ht : t.Built) (traffic : Traffic α)
    (routes : Array Route) (p : Placement) :
    (checkRoutes t traffic routes p).Proper ∧
    (checkRoutes t traffic routes p = .ok () →
      (∃ usage, expectedUsage t traffic routes = .ok usage) ∧
      (∀ (n : Network α) (tolerance : α), n.topology = t →
        (checkUsage n traffic routes tolerance).Proper) ∧
      ∀ {f : FlowId} {route : Route}, routes[f.index]? = some route →
        ∃ latency, t.routeLatency route = .ok latency ∧
          ∀ (flow : Flow α) (w : Weights α), flow.costTerms w t route =
            .ok ⟨flow.aggregateBandwidthCost route, flow.latencyCost w latency⟩) ∧
    ∀ (x : Tracker α) (c : Costs α) (tolerance : α), x.topology = t →
      (x.audit c tolerance p).Proper := by
  refine ⟨proper_checkRoutes t traffic routes p, fun h ↦ ⟨?_, ?_, ?_⟩, ?_⟩
  · exact ⟨_, expectedUsage_eq (admissible_of_checkRoutes h)⟩
  · rintro n tolerance rfl
    exact proper_checkUsage (admissible_of_checkRoutes h) tolerance
  · intro f route hroute
    obtain ⟨latency, hlatency⟩ :=
      ((checkRoutes_eq_ok_iff.1 h).2 hroute).exists_latency ht.wellFormed
    refine ⟨latency, hlatency, fun flow w ↦ ?_⟩
    rw [Flow.costTerms, hlatency]
    rfl
  · rintro x c tolerance rfl
    exact Tracker.proper_audit ht.wellFormed c tolerance

end Guarded

/-! ### A link that leads nowhere -/

namespace LooseEnd

/-- Two routers with a link between them, and a link that leads from the second one to a router that
does not exist. -/
def topology : Topology Exact where
  routers := #[⟨0, ⟨0, 0, 0⟩, .number 1⟩, ⟨1, ⟨1, 0, 0⟩, .number 1⟩]
  links := #[⟨⟨0⟩, ⟨1⟩, .number 8, .number 1⟩, ⟨⟨1⟩, ⟨9⟩, .number 8, .number 1⟩]
  departures := #[[⟨0⟩], [⟨1⟩]]

theorem built_topology : topology.Built := by
  have h₁ := Topology.Built.addRouter .empty (Topology.addRouter_of_free 0 (Exact.number 1)
    (by decide +kernel : Topology.routerAt? _ ⟨0, 0, 0⟩ = none))
  have h₂ := h₁.addRouter (Topology.addRouter_of_free 1 (Exact.number 1)
    (by decide +kernel : Topology.routerAt? _ ⟨1, 0, 0⟩ = none))
  have h₃ := h₂.addLink
    (show Topology.addLink _ ⟨0⟩ ⟨1⟩ (.number 8) (.number 1) = .ok (⟨0⟩, _) from rfl)
  exact h₃.addLink
    (show Topology.addLink _ ⟨1⟩ ⟨9⟩ (.number 8) (.number 1) = .ok (⟨1⟩, _) from rfl)

/-- A flow from the one router to the other. -/
def traffic : Traffic Exact :=
  (Traffic.empty.add ⟨"there", ⟨0⟩, ⟨1⟩, .number 3, .infinite false, .number 1⟩).2

/-- A tracker that was given a route for the flow. -/
def tracker (route : Route) : Tracker Exact :=
  { Tracker.fresh topology traffic .fewestHops Line.weights with
    ledger := .ofRoutes traffic topology #[route]
    isRouted := true }

end LooseEnd

/-- The route over the first link passes, so it has a latency. A route that goes on over the second
link has none, but it does not pass, and audits of either do not end with a fault. -/
theorem checkRoutes_guards_looseEnd :
    (∃ latency, LooseEnd.topology.routeLatency [⟨0⟩] = .ok latency) ∧
    LooseEnd.topology.routeLatency [⟨0⟩, ⟨1⟩] = Attempt.crash (.missing .router 9) ∧
    (checkRoutes LooseEnd.topology LooseEnd.traffic #[[⟨0⟩, ⟨1⟩]] (Line.placed 1)).Proper ∧
    ∀ c : Costs Exact, ((LooseEnd.tracker [⟨0⟩]).audit c 0 (Line.placed 1)).Proper ∧
      ((LooseEnd.tracker [⟨0⟩, ⟨1⟩]).audit c 0 (Line.placed 1)).Proper := by
  have hpass : checkRoutes LooseEnd.topology LooseEnd.traffic #[[⟨0⟩]] (Line.placed 1) =
      .ok () := by decide +kernel
  obtain ⟨-, hguarded, haudit⟩ :=
    checkRoutes_guards LooseEnd.built_topology LooseEnd.traffic #[[⟨0⟩]] (Line.placed 1)
  obtain ⟨latency, hlatency, -⟩ := (hguarded hpass).2.2 (f := ⟨0⟩) rfl
  exact ⟨⟨latency, hlatency⟩, by decide +kernel,
    (checkRoutes_guards LooseEnd.built_topology _ _ _).1,
    fun c ↦ ⟨haudit _ c 0 rfl, haudit _ c 0 rfl⟩⟩

end NetOnChip
