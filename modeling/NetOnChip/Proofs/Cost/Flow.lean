import NetOnChip.Cost.Flow
import NetOnChip.Proofs.Route.Demand
import NetOnChip.Proofs.Scalar.Number
import NetOnChip.Proofs.Topology.Built

/-!
# The cost of a flow

In a well-formed topology every route over existing links that lead to existing routers has a
latency (`Topology.routeLatency_yields_of_sinks`), so every flow on such a route has a cost. In a
closed one all links lead to existing routers. If the quantities that go into it are exact numbers
(`Numeric`) then both of its terms are numbers (`Numeric.costTerms`). That there may be no limit to
the latency of a flow does not matter, since such a flow has no overrun.
-/

namespace NetOnChip

section Latency

variable {α : Type} [Scalar α]

/-- **The latency of a route** over existing links that lead to existing routers is a sum of the
latencies on it, so it has whatever property these have and sums inherit. -/
theorem Topology.routeLatency_yields_of_sinks {t : Topology α} (hw : t.WellFormed) {P : α → Prop}
    (hzero : P 0) (hadd : ∀ {a b}, P a → P b → P (a + b))
    (hrouters : ∀ router ∈ t.routers, P router.latency) (hlinks : ∀ link ∈ t.links, P link.latency)
    {route : Route} (hroute : ∀ l ∈ route, l.index < t.links.size)
    (hsinks : ∀ l ∈ route, ∀ {link}, t.links[l.index]? = some link →
      link.sink.index < t.routers.size) :
    (t.routeLatency route).Yields P := by
  cases route with
  | nil => exact ⟨0, rfl, hzero⟩
  | cons first route =>
    refine (Attempt.yields_entry (hroute first List.mem_cons_self)).bind fun link hlink ↦ ?_
    have hsource := hw.source_lt link (Array.mem_of_getElem? hlink)
    refine (Attempt.yields_entry hsource).bind fun start hstart ↦ ?_
    refine Attempt.Yields.foldlM (hrouters start (Array.mem_of_getElem? hstart)) ?_
    intro sum hsum l hl
    refine (Attempt.yields_entry (hroute l hl)).bind fun link hlink ↦ ?_
    refine (Attempt.yields_entry (hsinks l hl hlink)).bind fun next hnext ↦ ?_
    have hrouter := hrouters next (Array.mem_of_getElem? hnext)
    exact ⟨_, rfl, hadd hsum (hadd (hlinks link (Array.mem_of_getElem? hlink)) hrouter)⟩

/-- In a closed topology every link leads to an existing router. -/
theorem Topology.routeLatency_yields {t : Topology α} (hw : t.WellFormed) (hc : t.Closed)
    {P : α → Prop} (hzero : P 0) (hadd : ∀ {a b}, P a → P b → P (a + b))
    (hrouters : ∀ router ∈ t.routers, P router.latency) (hlinks : ∀ link ∈ t.links, P link.latency)
    {route : Route} (hroute : ∀ l ∈ route, l.index < t.links.size) :
    (t.routeLatency route).Yields P :=
  routeLatency_yields_of_sinks hw hzero hadd hrouters hlinks hroute
    fun _ _ {link} hlink ↦ hc link (Array.mem_of_getElem? hlink)

end Latency

/-! ### Exact numbers -/

/-- The quantities that costs are calculated from are numbers. A flow may be without a limit, but a
limit does not lie below all numbers. -/
structure Numeric (topology : Topology Exact) (traffic : Traffic Exact) (w : Weights Exact) :
    Prop where
  /-- The time to pass a router is a number. -/
  router_latency : ∀ router ∈ topology.routers, router.latency.isNumber
  /-- The time to pass a link is a number. -/
  link_latency : ∀ link ∈ topology.links, link.latency.isNumber
  /-- Bandwidths are numbers. -/
  bandwidth : ∀ flow ∈ traffic.flows, flow.bandwidth.isNumber
  /-- Priorities are numbers. -/
  priority : ∀ flow ∈ traffic.flows, flow.priority.isNumber
  /-- Limits are numbers, or there is none. -/
  limit : ∀ flow ∈ traffic.flows, flow.maxLatency ≠ .infinite true
  /-- The weight of latencies is a number. -/
  latency : w.latency.isNumber
  /-- The weight of overruns is a number. -/
  overrun : w.overrun.isNumber

/-- A flow without a limit has no overrun. -/
theorem Flow.overrun_of_not_isConstrained {flow : Flow Exact} (h : ¬ flow.isConstrained)
    (hlimit : flow.maxLatency ≠ .infinite true) (q : Rat) : flow.overrun (.number q) = 0 := by
  rw [Flow.isConstrained] at h
  rw [Flow.overrun]
  cases hmax : flow.maxLatency with
  | number m => exact absurd (congrArg Exact.isNumber hmax) h
  | infinite s =>
    cases s with
    | false => rfl
    | true => exact absurd hmax hlimit
  | undefined => rfl

/-- The overrun of a latency is a number. -/
theorem Flow.isNumber_overrun {flow : Flow Exact} (hlimit : flow.maxLatency ≠ .infinite true)
    {latency : Exact} (h : latency.isNumber) : (flow.overrun latency).isNumber := by
  obtain ⟨q, rfl⟩ := Exact.isNumber_iff.1 h
  by_cases hconstrained : flow.isConstrained
  · obtain ⟨m, hm⟩ := Exact.isNumber_iff.1 hconstrained
    rw [Flow.overrun, hm, Exact.number_sub_number]
    exact Exact.larger_of_both (P := fun a ↦ a.isNumber) rfl rfl
  · rw [Flow.overrun_of_not_isConstrained hconstrained hlimit]
    rfl

theorem isNumber_addTimes {bandwidth sum : Exact} (hb : bandwidth.isNumber) (hsum : sum.isNumber)
    (n : Nat) : (addTimes bandwidth n sum).isNumber := by
  induction n generalizing sum with
  | zero => exact hsum
  | succ n ih => exact ih (Exact.isNumber_add hsum hb)

/-- The demand of flows whose bandwidths are numbers is a number. -/
theorem isNumber_demandOn {routed : List (Flow Exact × Route)}
    (h : ∀ e ∈ routed, e.1.bandwidth.isNumber) (l : LinkId) : (demandOn l routed).isNumber := by
  -- flows are added at the end, so the induction takes the last one off
  induction routed using List.reverseRecOn with
  | nil => rfl
  | append_singleton routed e ih =>
    have hbefore := ih fun e' he' ↦ h e' (List.mem_append_left _ he')
    rw [demandOn_concat]
    exact isNumber_addTimes (h e (by simp)) hbefore _

namespace Numeric

variable {topology : Topology Exact} {traffic : Traffic Exact} {w : Weights Exact}

theorem demand (h : Numeric topology traffic w) (routes : Array Route) (l : LinkId) :
    (traffic.demand routes l).isNumber :=
  isNumber_demandOn (fun e he ↦ h.bandwidth e.1 (Array.mem_toList_iff.1 (List.of_mem_zip he).1)) l

/-- The cost terms of a flow on a route over existing links are numbers. -/
theorem costTerms (h : Numeric topology traffic w) (hw : topology.WellFormed)
    (hc : topology.Closed) {flow : Flow Exact} (hflow : flow ∈ traffic.flows) {route : Route}
    (hroute : ∀ l ∈ route, l.index < topology.links.size) :
    (flow.costTerms w topology route).Yields fun terms ↦
      terms.aggregateBandwidth.isNumber ∧ terms.latency.isNumber := by
  refine (Topology.routeLatency_yields (P := fun a : Exact ↦ a.isNumber) hw hc rfl
    Exact.isNumber_add h.router_latency h.link_latency hroute).bind fun latency hlatency ↦ ?_
  have hpriority := h.priority flow hflow
  refine ⟨_, rfl, ?_, ?_⟩
  · exact Exact.isNumber_mul (Exact.isNumber_mul rfl (h.bandwidth flow hflow)) hpriority
  · have hover := Exact.isNumber_mul h.overrun (Flow.isNumber_overrun (h.limit flow hflow) hlatency)
    have htime := Exact.isNumber_mul h.latency hlatency
    exact Exact.isNumber_mul (Exact.isNumber_add hover htime) hpriority

end Numeric

end NetOnChip
