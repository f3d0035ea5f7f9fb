import NetOnChip.Proofs.Tracker.Coherent

/-!
# Trackers in step with a placement

A tracker is *in step* with a placement (`Synced`) when it has exactly the routes and the cost terms
that are found for the placement, and the links are charged for these routes. Being in step says all
that matters about a tracker; how it came there does not.

It is being coherent with the placement (`Synced.coherent`), in a topology where no route can go
wrong, and with links that carry what they should. So there are no faults, and whatever routes flows
again leaves the links with what the new routes demand of them:

* Evaluating a move puts the flows of the move on the routes for the placement after it, or on some
  of these routes if one flow cannot be routed (`Synced.evaluate_cases`).
* Committing the move puts the tracker in step with the placement after it (`Synced.commit`).
* Taking the move back, from either state, puts it in step with the placement before it
  (`Synced.revert_evaluate`).
-/

namespace NetOnChip

variable {α : Type} [Scalar α]

namespace Tracker

/-- A tracker in step with a placement. -/
structure Synced (t : Tracker α) (p : Placement) : Prop where
  /-- The topology lists the links that leave a router. -/
  wellFormed : t.topology.WellFormed
  /-- The links lead to existing routers. -/
  closed : t.topology.Closed
  /-- The registry of the flows is exact. -/
  built : t.traffic.Built
  /-- The flows were routed. -/
  isRouted : t.isRouted = true
  /-- Every flow has a route for the placement. -/
  routable : Ledger.Routable t.traffic t.algorithm t.topology p
  /-- The ledger is that of the routes for the placement. -/
  ledger_eq : t.ledger = .ofRoutes t.traffic t.topology (t.routesFor p)
  /-- The cost terms are those of the routes for the placement. -/
  current_eq : t.current = (t.traffic.flowIds.map (t.termsFor p)).toArray
  /-- There is room for the proposed cost terms of every flow. -/
  size_proposed : t.proposed.size = t.traffic.flows.size

variable {t : Tracker α} {p : Placement} {m : Move} {f : FlowId}

/-- Every flow has cost terms on its route for a placement. -/
theorem costTerms_routesFor (hw : t.topology.WellFormed) (hc : t.topology.Closed)
    (hf : f.index < t.traffic.flows.size) :
    (t.placedFor p).costTerms f = .ok (t.termsFor p f) := by
  obtain ⟨terms, hterms⟩ := exists_costTerms (t := t.placedFor p) hw hc
    (Ledger.admissible_routesFor hw hc) hf
  rw [termsFor_eq hterms, hterms]

/-- A tracker after a move was evaluated: the flows of the move have new routes, and their cost
terms are proposed. -/
def evaluated (t : Tracker α) (m : Move) (p : Placement) : Tracker α :=
  { t.onRoutes t.topology (t.routesFor p) (movedFlows t.traffic m)
      (movedFlows t.traffic m).reverse with
    proposed := overwrite (t.termsFor p) (movedFlows t.traffic m) t.proposed }

/-- A coherent tracker is in step if its links carry what they should. -/
theorem Coherent.synced (h : t.Coherent p) (hw : t.topology.WellFormed) (hc : t.topology.Closed)
    (husage : t.network.usage = Ledger.demands t.traffic t.topology (t.routesFor p)) :
    t.Synced p where
  wellFormed := hw
  closed := hc
  built := h.built
  isRouted := h.isRouted
  routable := h.routable
  ledger_eq := by
    rw [Ledger.ofRoutes_eq, ← husage, ← h.table_eq]
    rfl
  current_eq := h.current_eq
  size_proposed := h.size_proposed

namespace Synced

theorem usage_eq (h : t.Synced p) :
    t.network.usage = Ledger.demands t.traffic t.topology (t.routesFor p) :=
  congrArg (fun l : Ledger α ↦ l.network.usage) h.ledger_eq

/-- **A tracker in step** is coherent. -/
theorem coherent (h : t.Synced p) : t.Coherent p where
  built := h.built
  isRouted := h.isRouted
  routable := h.routable
  admissible := Ledger.admissible_routesFor h.wellFormed h.closed
  table_eq := congrArg Ledger.table h.ledger_eq
  size_usage := by rw [h.usage_eq, Ledger.size_demands]
  placed := costTerms_routesFor h.wellFormed h.closed
  current_eq := h.current_eq
  size_proposed := h.size_proposed

/-- Recomputing the costs of a tracker in step adds up the terms of the routes for the placement. -/
theorem recompute_eq (h : t.Synced p) :
    t.recompute = .ok (t.totalsFor p) :=
  h.coherent.recompute_eq

/-- Taking the costs of a tracker in step from scratch changes nothing about the tracker. -/
theorem loadCosts_eq (h : t.Synced p) (c : Costs α) :
    t.loadCosts c =
      .ok ({ c with
        aggregateBandwidth := (t.totalsFor p).aggregateBandwidth
        latency := (t.totalsFor p).latency }, t) :=
  h.coherent.loadCosts_eq c

/-! ### Evaluating a move -/

/-- **Evaluating a move.** Every flow has a route after the move, and the tracker has them all; or
some flow of the move has none, and those routed before it are on their new routes. -/
theorem evaluate_cases (h : t.Synced p) (m : Move) :
    Ledger.Routable t.traffic t.algorithm t.topology (p.apply m) ∧
      t.evaluate m (p.apply m) =
        ⟨t.evaluated m (p.apply m), .ok (t.change m p (p.apply m))⟩ ∨
    ∃ done affected marked e, done ⊆ movedFlows t.traffic m ∧
      (∃ f ∈ movedFlows t.traffic m,
        routeFlow t.traffic t.algorithm t.topology (p.apply m) f = .error (.error e)) ∧
      t.evaluate m (p.apply m) =
        ⟨t.onRoutes t.topology (Ledger.reassign t.traffic t.algorithm t.topology (p.apply m) done
            (t.routesFor p)) affected marked, .error (.error e)⟩ := by
  rcases h.coherent.evaluate_cases m
    with ⟨usage, hfollows, hroutable, _, heq⟩ |
      ⟨done, usage, affected, marked, e, hdone, hfollows, ⟨f, hf, hfailed⟩, heq⟩ |
      ⟨⟨f, hf, hsound⟩, _⟩
  · obtain rfl := hfollows.demands_eq h.usage_eq
    exact .inl ⟨hroutable, heq⟩
  · obtain rfl := hfollows.demands_eq h.usage_eq
    obtain ⟨e, rfl, hfailed⟩ | hnone := hfailed
    · exact .inr ⟨done, affected, marked, e, hdone, ⟨f, hf, hfailed⟩, heq⟩
    · exact absurd (costTerms_routesFor h.wellFormed h.closed (lt_of_mem_movedFlows h.built hf))
        (hnone _)
  · refine absurd ?_ hsound
    exact (routeFlow_ensures h.wellFormed h.closed (lt_of_mem_movedFlows h.built hf)).mono
      fun _ hconnects ↦ hconnects.lt_links

/-- Evaluating a move ends with a change or with an error. -/
theorem proper_evaluate (h : t.Synced p) (m : Move) :
    (t.evaluate m (p.apply m)).result.Proper := by
  rcases h.evaluate_cases m with ⟨_, heq⟩ | ⟨_, _, _, e, _, _, heq⟩
  · rw [heq]
    exact Attempt.proper_ok _
  · rw [heq]
    exact Attempt.proper_error e

/-- **A move that could be evaluated** has put its flows on their routes after it, and the answer is
the change that it makes. -/
theorem of_evaluate_eq_ok (h : t.Synced p) {d : Delta α}
    (heval : (t.evaluate m (p.apply m)).result = .ok d) :
    Ledger.Routable t.traffic t.algorithm t.topology (p.apply m) ∧
      (t.evaluate m (p.apply m)).state = t.evaluated m (p.apply m) ∧
        d = t.change m p (p.apply m) := by
  rcases h.evaluate_cases m with ⟨hroutable, heq⟩ | ⟨_, _, _, e, _, _, heq⟩
  · rw [heq] at heval ⊢
    cases heval
    exact ⟨hroutable, rfl, rfl⟩
  · rw [heq] at heval
    cases heval

/-- The routes of an evaluated move are those after it, whatever terms are kept. -/
theorem recompute_evaluated (h : t.Synced p) (m : Move) :
    (t.evaluated m (p.apply m)).recompute = .ok (t.totalsFor (p.apply m)) :=
  Tracker.recompute_eq fun _ hf ↦
    costTerms_routesFor (t := t) h.wellFormed h.closed (Id.mem_range.1 hf)

/-! ### Committing a move -/

/-- A committed move makes the proposed terms the current ones. -/
theorem commit_evaluated (h : t.Synced p) (c : Costs α) :
    ((t.evaluated m (p.apply m)).commit (t.change m p (p.apply m)) c).1 =
      { t.placedFor (p.apply m) with
        proposed := overwrite (t.termsFor (p.apply m)) (movedFlows t.traffic m) t.proposed
        current := overwrite (t.termsFor (p.apply m)) (movedFlows t.traffic m) t.current } :=
  h.coherent.commit_evaluatedOn _ c

/-- **Committing a move** puts the tracker in step with the placement after it. -/
theorem commit (h : t.Synced p)
    (hroutable : Ledger.Routable t.traffic t.algorithm t.topology (p.apply m)) (c : Costs α) :
    ((t.evaluated m (p.apply m)).commit (t.change m p (p.apply m)) c).1.Synced (p.apply m) := by
  have hfollows : Ledger.Follows t.traffic t.topology (t.routesFor p) t.network.usage
      (t.routesFor (p.apply m))
      (Ledger.demands t.traffic t.topology (t.routesFor (p.apply m))) :=
    ⟨Ledger.admissible_routesFor h.wellFormed h.closed,
      by rw [h.usage_eq, Ledger.size_demands, Ledger.size_demands], fun _ ↦ rfl⟩
  have hcoherent := h.coherent.commit hfollows hroutable
    (fun _ ↦ costTerms_routesFor h.wellFormed h.closed) c
  exact hcoherent.synced h.wellFormed h.closed rfl

/-! ### Taking a move back -/

/-- A tracker in step stays so when nothing but the proposed cost terms and the lists of flows
change. -/
theorem placedFor (h : t.Synced p) {proposed : Array (CostTerms α)}
    (hsize : proposed.size = t.traffic.flows.size) :
    ({ t.placedFor p with proposed } : Tracker α).Synced p :=
  (h.coherent.onLinks (Ledger.size_demands) hsize).synced h.wellFormed h.closed rfl

/-- **Taking an evaluated move back**, whether or not its evaluation succeeded. -/
theorem revert_evaluate (h : t.Synced p) (m : Move) :
    ∃ proposed : Array (CostTerms α), proposed.size = t.traffic.flows.size ∧
      (t.evaluate m (p.apply m)).state.revert m p =
        ⟨{ t.placedFor p with proposed }, .ok (movedFlows t.traffic m).length⟩ := by
  obtain ⟨_, proposed, hfollows, hsize, heq⟩ :=
    h.coherent.revert_evaluate (m := m) (h.proper_evaluate m)
  obtain rfl := hfollows.demands_eq h.usage_eq
  exact ⟨proposed, hsize, heq⟩

end Synced

/-! ### The first routing -/

section Start

variable {topology : Topology α} {traffic : Traffic α} {a : Algorithm} {w : Weights α}

/-- **Routing the flows of a fresh tracker** succeeds if every flow has a route. -/
theorem route_fresh_of_routable (hw : topology.WellFormed) (hc : topology.Closed)
    (hroutable : Ledger.Routable traffic a topology p) :
    (fresh topology traffic a w).route p =
      ⟨{ routedFor topology traffic a w p with
          current := (traffic.flowIds.map
            ((routedFor topology traffic a w p).termsFor p)).toArray },
        .ok ((routedFor topology traffic a w p).totalsFor p)⟩ := by
  have hrefresh := refresh_eq (t := routedFor topology traffic a w p)
    (fun f hf ↦ costTerms_routesFor (t := routedFor topology traffic a w p) hw hc
      (Id.mem_range.1 hf)) (by simp [routedFor, fresh, start])
  have hcharge : Ledger.chargeAll traffic a p traffic.flowIds (fresh topology traffic a w).ledger =
      .ok (routedFor topology traffic a w p).ledger := by
    rw [ledger_fresh]
    exact Ledger.chargeAll_eq_ok_iff.2 ⟨hroutable, Ledger.admissible_routesFor hw hc, rfl⟩
  exact (route_of_charged rfl hcharge).trans (congrArg (Outcome.ofAttempt _) hrefresh)

/-- **A tracker whose flows were just routed** is in step with the placement. -/
theorem synced_route_fresh (hw : topology.WellFormed) (hc : topology.Closed) (hb : traffic.Built)
    {terms : CostTerms α} (h : ((fresh topology traffic a w).route p).result = .ok terms) :
    ((fresh topology traffic a w).route p).state.Synced p ∧
      (fresh topology traffic a w).Alike ((fresh topology traffic a w).route p).state := by
  obtain ⟨e, he⟩ | ⟨hroutable, _⟩ := route_fresh_cases topology traffic a w p
  · rw [he] at h
    cases h
  · rw [route_fresh_of_routable hw hc hroutable]
    exact ⟨⟨hw, hc, hb, rfl, hroutable, rfl, rfl, by simp [routedFor, fresh, start]⟩,
      rfl, rfl, rfl, rfl⟩

end Start

end Tracker

end NetOnChip
