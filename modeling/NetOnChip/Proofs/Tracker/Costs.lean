import NetOnChip.Proofs.Cost.Flow
import NetOnChip.Proofs.Tracker.Reroute

/-!
# Cost terms of the present routes

The cost terms of a flow depend on its route alone, and in a well-formed and closed topology every
flow has some (`exists_costTerms`). Given these terms,

* `recompute_eq` and `refresh_eq` say that both calculations from scratch add them up in the order
  of the flows, and that refreshing also stores them;
* `propose_eq` and `adopt_eq` say that a move stores the terms of the flows that it affects and of
  no others, and which change it answers.
-/

namespace NetOnChip

variable {α : Type} [Scalar α]

namespace Tracker

variable {t : Tracker α} {f : FlowId}

/-! ### Costs exist -/

theorem costTerms_eq {flow : Flow α} {route : Route} (hflow : t.traffic.flows[f.index]? = some flow)
    (hroute : t.ledger.table.routes[f.index]? = some route) :
    t.costTerms f = flow.costTerms t.weights t.topology route := by
  rw [costTerms, Traffic.flow, Attempt.entry_eq_ok_iff.2 hflow, Attempt.ok_bind, routeOf,
    RouteTable.route, Attempt.entry_eq_ok_iff.2 hroute, Attempt.ok_bind]

/-- **Every flow has cost terms** on a route over existing links. -/
theorem exists_costTerms (hw : t.topology.WellFormed) (hc : t.topology.Closed)
    (hadm : Admissible t.traffic t.topology t.ledger.table.routes)
    (hf : f.index < t.traffic.flows.size) : ∃ terms, t.costTerms f = .ok terms := by
  have hroute := Array.getElem?_eq_getElem (hadm.size_eq.symm ▸ hf)
  obtain ⟨latency, hlatency, -⟩ := Topology.routeLatency_yields hw hc (P := fun _ ↦ True) trivial
    (fun _ _ ↦ trivial) (fun _ _ ↦ trivial) (fun _ _ ↦ trivial) (hadm.lt_links hroute)
  rw [costTerms_eq (Array.getElem?_eq_getElem hf) hroute, Flow.costTerms, hlatency]
  exact ⟨_, rfl⟩

/-! ### Recomputing and refreshing -/

/-- The sums of both cost terms. -/
def totals (terms : List (CostTerms α)) : CostTerms α :=
  ⟨total (terms.map (·.aggregateBandwidth)), total (terms.map (·.latency))⟩

theorem aggregateBandwidthCost_of_costTerms {terms : CostTerms α} (h : t.costTerms f = .ok terms) :
    t.aggregateBandwidthCost f = .ok terms.aggregateBandwidth := by
  obtain ⟨flow, hflow, h⟩ := Attempt.bind_eq_ok_iff.1 h
  obtain ⟨route, hroute, h⟩ := Attempt.bind_eq_ok_iff.1 h
  obtain ⟨latency, _, h⟩ := Attempt.bind_eq_ok_iff.1 h
  cases h
  rw [aggregateBandwidthCost, hflow, Attempt.ok_bind, hroute]
  rfl

theorem latencyCost_of_costTerms {terms : CostTerms α} (h : t.costTerms f = .ok terms) :
    t.latencyCost f = .ok terms.latency := by
  obtain ⟨flow, hflow, h⟩ := Attempt.bind_eq_ok_iff.1 h
  obtain ⟨route, hroute, h⟩ := Attempt.bind_eq_ok_iff.1 h
  obtain ⟨latency, hlatency, h⟩ := Attempt.bind_eq_ok_iff.1 h
  cases h
  rw [latencyCost, hflow, Attempt.ok_bind, hroute, Attempt.ok_bind, hlatency]
  rfl

section Refresh

variable {v : FlowId → CostTerms α} (hv : ∀ f ∈ t.traffic.flowIds, t.costTerms f = .ok (v f))

include hv

/-- **Recomputing** adds up the terms of the present routes. -/
theorem recompute_eq : t.recompute = .ok (totals (t.traffic.flowIds.map v)) := by
  rw [recompute, Attempt.mapM_eq_ok hv]
  rfl

theorem refreshAggregateBandwidth_eq :
    t.refreshAggregateBandwidth =
      .ok (total (t.traffic.flowIds.map fun f ↦ (v f).aggregateBandwidth),
        { t with
          current := ((t.current.toList.zip
              (t.traffic.flowIds.map fun f ↦ (v f).aggregateBandwidth)).map
            fun (terms, cost) ↦ { terms with aggregateBandwidth := cost }).toArray }) := by
  have hcosts : t.traffic.flowIds.mapM t.aggregateBandwidthCost =
      .ok (t.traffic.flowIds.map fun f ↦ (v f).aggregateBandwidth) :=
    Attempt.mapM_eq_ok fun f hf ↦ aggregateBandwidthCost_of_costTerms (hv f hf)
  rw [refreshAggregateBandwidth, hcosts]
  rfl

theorem refreshLatency_eq :
    t.refreshLatency =
      .ok (total (t.traffic.flowIds.map fun f ↦ (v f).latency),
        { t with
          current := ((t.current.toList.zip (t.traffic.flowIds.map fun f ↦ (v f).latency)).map
            fun (terms, cost) ↦ { terms with latency := cost }).toArray }) := by
  have hcosts : t.traffic.flowIds.mapM t.latencyCost =
      .ok (t.traffic.flowIds.map fun f ↦ (v f).latency) :=
    Attempt.mapM_eq_ok fun f hf ↦ latencyCost_of_costTerms (hv f hf)
  rw [refreshLatency, hcosts]
  rfl

/-- **Refreshing** replaces all terms by those of the present routes, and adds them up. -/
theorem refresh_eq (hsize : t.current.size = t.traffic.flows.size) :
    t.refresh = .ok (totals (t.traffic.flowIds.map v),
      { t with current := (t.traffic.flowIds.map v).toArray }) := by
  rw [refresh, refreshAggregateBandwidth_eq hv, Attempt.ok_bind]
  generalize hcurrent : ((t.current.toList.zip
      (t.traffic.flowIds.map fun f ↦ (v f).aggregateBandwidth)).map
    fun (terms, cost) ↦ { terms with aggregateBandwidth := cost }).toArray = current
  -- the cost terms do not depend on what is kept
  have hlatency := refreshLatency_eq (t := { t with current }) (v := v) hv
  have hterms : (current.toList.zip (t.traffic.flowIds.map fun f ↦ (v f).latency)).map
      (fun (terms, cost) ↦ ({ terms with latency := cost } : CostTerms α)) =
        t.traffic.flowIds.map v := by
    subst hcurrent
    exact List.ext_getElem (by simp [Traffic.flowIds, hsize]) fun i _ _ ↦ by simp
  show refreshLatency { t with current } >>= _ = _
  rw [hlatency, Attempt.ok_bind, hterms]
  simp only [totals, List.map_map]
  rfl

end Refresh

/-- Every flow has cost terms on its present route, if refreshing succeeds. -/
theorem exists_costTerms_of_refresh {r : CostTerms α × Tracker α} (h : t.refresh = .ok r)
    (hf : f ∈ t.traffic.flowIds) : ∃ terms, t.costTerms f = .ok terms := by
  obtain ⟨⟨_, t'⟩, hbandwidth, h⟩ := Attempt.bind_eq_ok_iff.1 h
  obtain ⟨_, hlatency, _⟩ := Attempt.bind_eq_ok_iff.1 h
  obtain ⟨_, _, hbandwidth⟩ := Attempt.bind_eq_ok_iff.1 hbandwidth
  cases hbandwidth
  obtain ⟨_, hcosts, _⟩ := Attempt.bind_eq_ok_iff.1 hlatency
  obtain ⟨_, hcost⟩ := Attempt.exists_of_mapM_eq_ok hcosts hf
  obtain ⟨flow, hflow, hcost⟩ := Attempt.bind_eq_ok_iff.1 hcost
  obtain ⟨route, hroute, hcost⟩ := Attempt.bind_eq_ok_iff.1 hcost
  obtain ⟨latency, hlatency, _⟩ := Attempt.bind_eq_ok_iff.1 hcost
  refine ⟨⟨flow.aggregateBandwidthCost route, flow.latencyCost t.weights latency⟩, ?_⟩
  have hroute' : t.routeOf f = .ok route := hroute
  have hlatency' : t.topology.routeLatency route = .ok latency := hlatency
  rw [costTerms, hflow, Attempt.ok_bind, hroute', Attempt.ok_bind, Flow.costTerms, hlatency']
  rfl

/-! ### Proposing and adopting -/

/-- A table in which the entries of some flows are replaced, one after the other. -/
def overwrite {β : Type} (values : FlowId → β) (flows : List FlowId) (table : Array β) : Array β :=
  flows.foldl (fun table f ↦ table.setIfInBounds f.index (values f)) table

@[simp] theorem size_overwrite {β : Type} (values : FlowId → β) (flows : List FlowId)
    (table : Array β) : (overwrite values flows table).size = table.size := by
  induction flows generalizing table with
  | nil => rfl
  | cons g flows ih => exact (ih _).trans Array.size_setIfInBounds

theorem getElem?_overwrite {β : Type} (values : FlowId → β) (flows : List FlowId)
    (table : Array β) (f : FlowId) :
    (overwrite values flows table)[f.index]? =
      table[f.index]?.map fun b ↦ if f ∈ flows then values f else b := by
  induction flows generalizing table with
  | nil => simp [overwrite]
  | cons g flows ih =>
    refine (ih (table.setIfInBounds g.index (values g))).trans ?_
    rw [Array.getElem?_setIfInBounds]
    rcases eq_or_ne g f with rfl | hg
    · rcases Nat.lt_or_ge g.index table.size with hlt | hge
      · simp [hlt]
      · simp [hge]
    · rw [if_neg fun e ↦ hg (Id.ext e)]
      simp [Ne.symm hg]

/-- A change of the cost, and that of one more flow. -/
def exchange (new old : CostTerms α) (d : Delta α) : Delta α :=
  { d with
    aggregateBandwidth :=
      d.aggregateBandwidth + (new.aggregateBandwidth - old.aggregateBandwidth)
    latency := d.latency + (new.latency - old.latency) }

theorem rerouted_foldl_exchange (new old : FlowId → CostTerms α) (flows : List FlowId)
    (d : Delta α) :
    (flows.foldl (fun d f ↦ exchange (new f) (old f) d) d).rerouted = d.rerouted := by
  induction flows generalizing d with
  | nil => rfl
  | cons f flows ih => exact ih _

/-- Changes add up from zero on, and in the order of the flows. -/
theorem aggregateBandwidth_foldl_exchange (new old : FlowId → CostTerms α) (flows : List FlowId)
    (n : Nat) :
    (flows.foldl (fun d f ↦ exchange (new f) (old f) d)
        { Delta.none with rerouted := n }).aggregateBandwidth =
      total (flows.map fun f ↦ (new f).aggregateBandwidth - (old f).aggregateBandwidth) := by
  rw [total, List.foldl_map]
  exact (List.foldl_hom Delta.aggregateBandwidth fun _ _ ↦ rfl).symm

theorem latency_foldl_exchange (new old : FlowId → CostTerms α) (flows : List FlowId) (n : Nat) :
    (flows.foldl (fun d f ↦ exchange (new f) (old f) d)
        { Delta.none with rerouted := n }).latency =
      total (flows.map fun f ↦ (new f).latency - (old f).latency) := by
  rw [total, List.foldl_map]
  exact (List.foldl_hom Delta.latency fun _ _ ↦ rfl).symm

/-- **Proposing** the terms of the present routes for some flows. -/
theorem propose_eq (flows : List FlowId) {new old : FlowId → CostTerms α}
    (hnew : ∀ f ∈ flows, t.costTerms f = .ok (new f))
    (hold : ∀ f ∈ flows, t.current[f.index]? = some (old f)) (d : Delta α) :
    propose flows d t =
      .ok (flows.foldl (fun d f ↦ exchange (new f) (old f) d) d,
        { t with proposed := overwrite new flows t.proposed }) := by
  induction flows generalizing t d with
  | nil => rfl
  | cons f flows ih =>
    obtain ⟨hnewf, hnew⟩ := List.forall_mem_cons.1 hnew
    obtain ⟨holdf, hold⟩ := List.forall_mem_cons.1 hold
    rw [propose, hnewf, Attempt.ok_bind, Attempt.entry_eq_ok_iff.2 holdf, Attempt.ok_bind]
    exact ih (t := { t with proposed := t.proposed.setIfInBounds f.index (new f) }) hnew hold _

/-- Terms of the present routes are proposed only for flows that have some, in the place of current
ones. -/
theorem exists_terms_of_propose {flows : List FlowId} {d : Delta α} {r : Delta α × Tracker α}
    (h : propose flows d t = .ok r) :
    ∀ f ∈ flows, ∃ new old, t.costTerms f = .ok new ∧ t.current[f.index]? = some old := by
  induction flows generalizing t d with
  | nil => exact List.forall_mem_nil _
  | cons f flows ih =>
    obtain ⟨new, hnew, h⟩ := Attempt.bind_eq_ok_iff.1 h
    obtain ⟨old, hold, h⟩ := Attempt.bind_eq_ok_iff.1 h
    -- the cost terms do not depend on what is proposed
    exact List.forall_mem_cons.2 ⟨⟨new, old, hnew, Attempt.entry_eq_ok_iff.1 hold⟩,
      ih (t := { t with proposed := t.proposed.setIfInBounds f.index new }) h⟩

/-- Terms of the present routes cannot be proposed for a flow that has none. -/
theorem exists_error_of_propose {flows : List FlowId} (hf : f ∈ flows)
    (hnone : ∀ terms, t.costTerms f ≠ .ok terms) (d : Delta α) :
    ∃ e, propose flows d t = .error e := by
  cases h : propose flows d t with
  | error e => exact ⟨e, rfl⟩
  | ok r =>
    obtain ⟨new, _, hnew, -⟩ := exists_terms_of_propose h f hf
    exact absurd hnew (hnone new)

omit [Scalar α] in
/-- **Adopting** the terms that were proposed for some flows. -/
theorem adopt_eq {flows : List FlowId} {new : FlowId → CostTerms α}
    (hnew : ∀ f ∈ flows, t.proposed[f.index]? = some (new f)) :
    t.adopt flows = { t with current := overwrite new flows t.current } := by
  rw [adopt, overwrite]
  congr 1
  refine List.foldl_ext _ _ _ fun current f hf ↦ ?_
  rw [hnew f hf]

end Tracker

end NetOnChip
