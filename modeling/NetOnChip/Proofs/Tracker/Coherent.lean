import NetOnChip.Proofs.Tracker.Costs
import NetOnChip.Proofs.Tracker.Start

/-!
# Trackers that cache the right costs

A tracker is *coherent* with a placement (`Coherent`) when it stores the routes that are found for
the placement and, for every flow, the very cost terms of its route. What the links carry is left
open, and links need not lead to existing routers.

* Evaluating a move puts the flows of the move on the routes for the placement after it, or on some
  of these routes if one flow cannot be routed. Otherwise there is a fault, and then something was
  wrong with a route that was found (`Coherent.evaluate_cases`).
* Committing the move makes the tracker coherent with the placement after it (`Coherent.commit`).
  The number that the change counts is that of the flows which have new routes, so all of their
  terms are adopted; the terms of all other flows are still right, since their routes have stayed.
* Taking the move back, from either state, makes it coherent with the placement before it
  (`Coherent.revert_evaluate`). The cost terms were not touched meanwhile.

A coherent tracker answers the costs of its routes from its cache, so that taking them from scratch
changes nothing about it.
-/

namespace NetOnChip

variable {α : Type} [Scalar α]

namespace Tracker

/-! ### Routes and cost terms for a placement -/

/-- The routes for a placement. -/
def routesFor (t : Tracker α) (p : Placement) : Array Route :=
  Ledger.routesFor t.traffic t.algorithm t.topology p

/-- A tracker with the routes for a placement, and with no move being tried. -/
def placedFor (t : Tracker α) (p : Placement) : Tracker α :=
  t.onRoutes t.topology (t.routesFor p) [] []

/-- The cost terms of a flow on its route for a placement. -/
def termsFor (t : Tracker α) (p : Placement) (f : FlowId) : CostTerms α :=
  ((t.placedFor p).costTerms f).toOption.getD 0

/-- Both cost terms of all flows on their routes for a placement. -/
def totalsFor (t : Tracker α) (p : Placement) : CostTerms α :=
  totals (t.traffic.flowIds.map (t.termsFor p))

/-- A tracker that stores the routes for a placement and the cost terms of these routes. -/
structure Coherent (t : Tracker α) (p : Placement) : Prop where
  /-- The registry of the flows is exact. -/
  built : t.traffic.Built
  /-- The flows were routed. -/
  isRouted : t.isRouted = true
  /-- Every flow has a route for the placement. -/
  routable : Ledger.Routable t.traffic t.algorithm t.topology p
  /-- These routes take existing links. -/
  admissible : Admissible t.traffic t.topology (t.routesFor p)
  /-- They are stored, and the links list the flows that cross them. -/
  table_eq : t.ledger.table = .ofRoutes (t.routesFor p) t.topology.links.size
  /-- Every link has a usage. -/
  size_usage : t.network.usage.size = t.topology.links.size
  /-- Every flow has cost terms on its route. -/
  placed : ∀ {f : FlowId}, f.index < t.traffic.flows.size →
    (t.placedFor p).costTerms f = .ok (t.termsFor p f)
  /-- These terms are stored. -/
  current_eq : t.current = (t.traffic.flowIds.map (t.termsFor p)).toArray
  /-- There is room for the proposed cost terms of every flow. -/
  size_proposed : t.proposed.size = t.traffic.flows.size

/-- The second tracker has the flows, the algorithm, the weights and the topology of the first. -/
structure Alike (t t' : Tracker α) : Prop where
  /-- The flows are the same. -/
  traffic_eq : t'.traffic = t.traffic
  /-- The algorithm is the same. -/
  algorithm_eq : t'.algorithm = t.algorithm
  /-- The weights are the same. -/
  weights_eq : t'.weights = t.weights
  /-- The topology is the same. -/
  topology_eq : t'.topology = t.topology

omit [Scalar α] in
theorem Alike.trans {t₁ t₂ t₃ : Tracker α} (h₁ : Alike t₁ t₂) (h₂ : Alike t₂ t₃) : Alike t₁ t₃ where
  traffic_eq := h₂.traffic_eq.trans h₁.traffic_eq
  algorithm_eq := h₂.algorithm_eq.trans h₁.algorithm_eq
  weights_eq := h₂.weights_eq.trans h₁.weights_eq
  topology_eq := h₂.topology_eq.trans h₁.topology_eq

variable {t : Tracker α} {p : Placement} {m : Move} {f : FlowId} {affected marked : List FlowId}
  {routes : Array Route} {usage : Array α}

theorem costTerms_placedFor (t : Tracker α) (p : Placement) (f : FlowId) :
    (t.placedFor p).costTerms f =
      t.traffic.flow f >>= fun flow ↦ Attempt.entry (t.routesFor p) f >>= fun route ↦
        flow.costTerms t.weights t.topology route := rfl

theorem termsFor_eq {terms : CostTerms α} (h : (t.placedFor p).costTerms f = .ok terms) :
    t.termsFor p f = terms := by
  rw [termsFor, h]
  rfl

theorem Alike.totalsFor_eq {t' : Tracker α} (h : t.Alike t') (p : Placement) :
    t'.totalsFor p = t.totalsFor p := by
  have hroutes : t'.routesFor p = t.routesFor p := by
    rw [routesFor, routesFor, h.traffic_eq, h.algorithm_eq, h.topology_eq]
  have hterms : t'.termsFor p = t.termsFor p := by
    funext f
    rw [termsFor, termsFor, costTerms_placedFor, costTerms_placedFor, hroutes, h.traffic_eq,
      h.weights_eq, h.topology_eq]
  rw [totalsFor, totalsFor, hterms, h.traffic_eq]

/-- The routes after a move are those before it, except for the flows of the move. -/
theorem getElem?_routesFor_apply (hb : t.traffic.Built) (hf : f ∉ movedFlows t.traffic m) :
    (t.routesFor (p.apply m))[f.index]? = (t.routesFor p)[f.index]? := by
  rw [routesFor, routesFor, Ledger.routesFor, Ledger.routesFor, Array.getElem?_ofFn,
    Array.getElem?_ofFn]
  split
  · rw [Ledger.newRoute, Ledger.newRoute, routeFlow_apply hb hf]
  · rfl

/-- So are the costs of these routes. -/
theorem costTerms_apply (hb : t.traffic.Built) (hf : f ∉ movedFlows t.traffic m) :
    (t.placedFor (p.apply m)).costTerms f = (t.placedFor p).costTerms f := by
  have hroute : (Attempt.entry (t.routesFor (p.apply m)) f : Attempt α Route) =
      Attempt.entry (t.routesFor p) f := by
    rw [Attempt.entry, Attempt.entry, getElem?_routesFor_apply hb hf]
  rw [costTerms_placedFor, costTerms_placedFor, hroute]

theorem termsFor_apply (hb : t.traffic.Built) (hf : f ∉ movedFlows t.traffic m) :
    t.termsFor (p.apply m) f = t.termsFor p f := by
  rw [termsFor, termsFor, costTerms_apply hb hf]

/-- A tracker after a move was evaluated: the flows of the move have new routes, and their cost
terms are proposed. -/
def evaluatedOn (t : Tracker α) (m : Move) (p : Placement) (usage : Array α) : Tracker α :=
  { t.onLinks t.topology usage (t.routesFor p) (movedFlows t.traffic m)
      (movedFlows t.traffic m).reverse with
    proposed := overwrite (t.termsFor p) (movedFlows t.traffic m) t.proposed }

/-- The change that a move makes. -/
def change (t : Tracker α) (m : Move) (p p' : Placement) : Delta α :=
  (movedFlows t.traffic m).foldl (fun d f ↦ exchange (t.termsFor p' f) (t.termsFor p f) d)
    { Delta.none with rerouted := (movedFlows t.traffic m).length }

theorem rerouted_change (p' : Placement) :
    (t.change m p p').rerouted = (movedFlows t.traffic m).length :=
  rerouted_foldl_exchange ..

omit [Scalar α] in
/-- Terms are not changed by their own aggregate bandwidth costs. -/
theorem zip_aggregateBandwidth (l : List (CostTerms α)) :
    ((l.zip (l.map (·.aggregateBandwidth))).map fun (terms, cost) ↦
      { terms with aggregateBandwidth := cost }) = l :=
  List.ext_getElem (by simp) fun _ _ _ ↦ by simp

omit [Scalar α] in
/-- Nor are they by their own latency costs. -/
theorem zip_latency (l : List (CostTerms α)) :
    ((l.zip (l.map (·.latency))).map fun (terms, cost) ↦ { terms with latency := cost }) = l :=
  List.ext_getElem (by simp) fun _ _ _ ↦ by simp

namespace Coherent

/-! ### Costs from the cache -/

theorem eq_onLinks (h : t.Coherent p) :
    t = t.onLinks t.topology t.network.usage (t.routesFor p) t.affected t.marked := by
  rw [onLinks, ← h.table_eq]
  rfl

theorem size_current (h : t.Coherent p) : t.current.size = t.traffic.flows.size := by
  simp [h.current_eq, Traffic.flowIds]

theorem getElem?_current (h : t.Coherent p) (hf : f.index < t.traffic.flows.size) :
    t.current[f.index]? = some (t.termsFor p f) := by
  rw [h.current_eq]
  simp [Traffic.flowIds, Id.range, hf]

theorem costTerms_eq (h : t.Coherent p) (hf : f.index < t.traffic.flows.size) :
    t.costTerms f = .ok (t.termsFor p f) := by
  rw [h.eq_onLinks]
  exact h.placed hf

/-- Recomputing the costs of a coherent tracker adds up the terms of the routes for the
placement. -/
theorem recompute_eq (h : t.Coherent p) : t.recompute = .ok (t.totalsFor p) :=
  Tracker.recompute_eq fun _ hf ↦ h.costTerms_eq (Id.mem_range.1 hf)

/-- These are the terms that it stores. -/
theorem totalsFor_eq (h : t.Coherent p) : t.totalsFor p = totals t.current.toList := by
  rw [h.current_eq]
  rfl

/-- Taking the aggregate bandwidth costs from scratch changes nothing about the tracker. -/
theorem refreshAggregateBandwidth_eq (h : t.Coherent p) :
    t.refreshAggregateBandwidth = .ok ((t.totalsFor p).aggregateBandwidth, t) := by
  have hcosts : (t.traffic.flowIds.map fun f ↦ (t.termsFor p f).aggregateBandwidth) =
      t.current.toList.map (·.aggregateBandwidth) := by
    rw [h.current_eq, List.map_map]
    rfl
  rw [Tracker.refreshAggregateBandwidth_eq fun _ hf ↦ h.costTerms_eq (Id.mem_range.1 hf), hcosts,
    h.totalsFor_eq]
  simp only [zip_aggregateBandwidth, Array.toArray_toList]
  rfl

/-- Taking the latency costs from scratch changes nothing about the tracker. -/
theorem refreshLatency_eq (h : t.Coherent p) :
    t.refreshLatency = .ok ((t.totalsFor p).latency, t) := by
  have hcosts : (t.traffic.flowIds.map fun f ↦ (t.termsFor p f).latency) =
      t.current.toList.map (·.latency) := by
    rw [h.current_eq, List.map_map]
    rfl
  rw [Tracker.refreshLatency_eq fun _ hf ↦ h.costTerms_eq (Id.mem_range.1 hf), hcosts,
    h.totalsFor_eq]
  simp only [zip_latency, Array.toArray_toList]
  rfl

/-- Taking all costs from scratch changes nothing about the tracker. -/
theorem loadCosts_eq (h : t.Coherent p) (c : Costs α) :
    t.loadCosts c =
      .ok ({ c with
        aggregateBandwidth := (t.totalsFor p).aggregateBandwidth
        latency := (t.totalsFor p).latency }, t) := by
  rw [loadCosts, ensureRouted, if_pos h.isRouted, Attempt.ok_bind, refresh,
    h.refreshAggregateBandwidth_eq, Attempt.ok_bind]
  show ((refreshLatency t >>= _) >>= _) = _
  rw [h.refreshLatency_eq]
  rfl

/-! ### Evaluating a move -/

/-- **Evaluating a move.** Every flow has a route and cost terms after the move, and the tracker has
them all; or some flow of the move has no route or no cost terms, and those routed before it are on
their new routes; or there is a fault, and a route that was found is none over existing links. -/
theorem evaluate_cases (h : t.Coherent p) (m : Move) :
    (∃ usage, Ledger.Follows t.traffic t.topology (t.routesFor p) t.network.usage
        (t.routesFor (p.apply m)) usage ∧
      Ledger.Routable t.traffic t.algorithm t.topology (p.apply m) ∧
      (∀ f : FlowId, f.index < t.traffic.flows.size →
        (t.placedFor (p.apply m)).costTerms f = .ok (t.termsFor (p.apply m) f)) ∧
      t.evaluate m (p.apply m) =
        ⟨t.evaluatedOn m (p.apply m) usage, .ok (t.change m p (p.apply m))⟩) ∨
    (∃ done usage affected marked e, done ⊆ movedFlows t.traffic m ∧
      Ledger.Follows t.traffic t.topology (t.routesFor p) t.network.usage
        (Ledger.reassign t.traffic t.algorithm t.topology (p.apply m) done (t.routesFor p)) usage ∧
      (∃ f ∈ movedFlows t.traffic m,
        (∃ e', e = .error e' ∧
          routeFlow t.traffic t.algorithm t.topology (p.apply m) f = .error (.error e')) ∨
        ∀ terms, (t.placedFor (p.apply m)).costTerms f ≠ .ok terms) ∧
      t.evaluate m (p.apply m) =
        ⟨t.onLinks t.topology usage (Ledger.reassign t.traffic t.algorithm t.topology (p.apply m)
            done (t.routesFor p)) affected marked, .error e⟩) ∨
    (∃ f ∈ movedFlows t.traffic m,
        ¬ Ledger.Sound t.topology (routeFlow t.traffic t.algorithm t.topology (p.apply m) f)) ∧
      ∃ e, (t.evaluate m (p.apply m)).result = .error (.fault e) := by
  have hevaluate : t.evaluate m (p.apply m) =
      ((t.onLinks t.topology t.network.usage (t.routesFor p) t.affected t.marked).rerouteMoved m
        (p.apply m)).andThen fun n t ↦
        .ofAttempt t (t.propose t.affected { Delta.none with rerouted := n }) := by
    rw [evaluate, ensureRouted, if_pos h.isRouted, Outcome.ok_andThen, ← h.eq_onLinks]
  rw [hevaluate]
  rcases rerouteMoved_cases (p := p.apply m) h.admissible h.size_usage m t.affected
      t.marked
    with ⟨usage, hfollows, hfound, heq⟩ |
      ⟨done, f, rest, usage, e, hsplit, hfollows, _, hfailed, heq⟩ | ⟨hsound, e, he⟩
  · have hroutes : Ledger.reassign t.traffic t.algorithm t.topology (p.apply m)
        (movedFlows t.traffic m) (t.routesFor p) = t.routesFor (p.apply m) :=
      Ledger.reassign_eq_routesFor (by simp [routesFor]) hfound fun f hf ↦
        (getElem?_routesFor_apply h.built hf).symm
    by_cases hterms : ∀ f ∈ movedFlows t.traffic m,
        ∃ terms, (t.placedFor (p.apply m)).costTerms f = .ok terms
    · have hall : ∀ f : FlowId, f.index < t.traffic.flows.size →
          (t.placedFor (p.apply m)).costTerms f = .ok (t.termsFor (p.apply m) f) := by
        intro f hf
        by_cases hmem : f ∈ movedFlows t.traffic m
        · obtain ⟨terms, hterms⟩ := hterms f hmem
          rw [termsFor_eq hterms, hterms]
        · -- a flow that the move leaves alone has the terms that it had before
          rw [costTerms_apply h.built hmem, termsFor_apply h.built hmem, h.placed hf]
      have hpropose := propose_eq
        (t := t.onLinks t.topology usage (t.routesFor (p.apply m)) (movedFlows t.traffic m)
          (movedFlows t.traffic m).reverse) (movedFlows t.traffic m)
        (fun f hf ↦ hall f (lt_of_mem_movedFlows h.built hf))
        (fun f hf ↦ h.getElem?_current (lt_of_mem_movedFlows h.built hf))
        { Delta.none with rerouted := (movedFlows t.traffic m).length }
      refine .inl ⟨usage, hroutes ▸ hfollows, fun f hf ↦ ?_, hall, ?_⟩
      · by_cases hmem : f ∈ movedFlows t.traffic m
        · exact hfound f hmem
        · rw [routeFlow_apply h.built hmem]
          exact h.routable f hf
      · rw [heq, hroutes, Outcome.ok_andThen]
        exact congrArg (Outcome.ofAttempt _) hpropose
    · obtain ⟨f, hf, hnone⟩ : ∃ f ∈ movedFlows t.traffic m,
          ∀ terms, (t.placedFor (p.apply m)).costTerms f ≠ .ok terms := by
        simpa using hterms
      obtain ⟨e, he⟩ := exists_error_of_propose
        (t := t.onLinks t.topology usage (t.routesFor (p.apply m)) (movedFlows t.traffic m)
          (movedFlows t.traffic m).reverse) hf hnone
        { Delta.none with rerouted := (movedFlows t.traffic m).length }
      refine .inr (.inl ⟨_, usage, movedFlows t.traffic m, (movedFlows t.traffic m).reverse, e,
        List.Subset.refl _, hfollows, ⟨f, hf, .inr hnone⟩, ?_⟩)
      rw [heq, hroutes, Outcome.ok_andThen]
      exact congrArg (Outcome.ofAttempt _) he
  · refine .inr (.inl ⟨done ++ [f], usage, done, (done ++ [f]).reverse, _, ?_, hfollows,
      ⟨f, by simp [hsplit], .inl ⟨e, rfl, hfailed⟩⟩, ?_⟩)
    · rw [hsplit, List.append_cons done f rest]
      exact List.subset_append_left ..
    · rw [heq]
      rfl
  · refine .inr (.inr ⟨hsound, e, ?_⟩)
    simp only [Outcome.andThen, he]

/-! ### Committing a move -/

/-- A committed move makes the proposed terms the current ones. -/
theorem commit_evaluatedOn (h : t.Coherent p) (usage : Array α) (c : Costs α) :
    ((t.evaluatedOn m (p.apply m) usage).commit (t.change m p (p.apply m)) c).1 =
      { t.onLinks t.topology usage (t.routesFor (p.apply m)) [] [] with
        proposed := overwrite (t.termsFor (p.apply m)) (movedFlows t.traffic m) t.proposed
        current := overwrite (t.termsFor (p.apply m)) (movedFlows t.traffic m) t.current } := by
  -- the change counts all flows of the move, so none of the proposed terms is left behind
  have hall : (t.evaluatedOn m (p.apply m) usage).affected.take
      (t.change m p (p.apply m)).rerouted = movedFlows t.traffic m := by
    rw [rerouted_change]
    exact List.take_length
  have hproposed : ∀ f ∈ movedFlows t.traffic m,
      (t.evaluatedOn m (p.apply m) usage).proposed[f.index]? =
        some (t.termsFor (p.apply m) f) := by
    intro f hf
    have hlt : f.index < t.proposed.size := h.size_proposed ▸ lt_of_mem_movedFlows h.built hf
    rw [evaluatedOn, getElem?_overwrite, Array.getElem?_eq_getElem hlt, Option.map_some, if_pos hf]
  rw [Tracker.commit, hall, adopt_eq hproposed]
  rfl

/-- The cost terms after a move are those before it, except for the flows of the move. -/
theorem overwrite_current (h : t.Coherent p) (m : Move) :
    overwrite (t.termsFor (p.apply m)) (movedFlows t.traffic m) t.current =
      (t.traffic.flowIds.map (t.termsFor (p.apply m))).toArray := by
  refine Array.ext_getElem? fun i ↦ ?_
  rw [getElem?_overwrite _ _ _ ⟨i⟩, h.current_eq]
  rcases Nat.lt_or_ge i t.traffic.flows.size with hi | hi
  · by_cases hf : (⟨i⟩ : FlowId) ∈ movedFlows t.traffic m
    · simp [Traffic.flowIds, Id.range, hi, hf]
    · simp [Traffic.flowIds, Id.range, hi, hf, termsFor_apply h.built hf]
  · simp [Traffic.flowIds, Id.range, hi]

/-- **Committing a move** makes the tracker coherent with the placement after it. -/
theorem commit (h : t.Coherent p)
    (hfollows : Ledger.Follows t.traffic t.topology (t.routesFor p) t.network.usage
      (t.routesFor (p.apply m)) usage)
    (hroutable : Ledger.Routable t.traffic t.algorithm t.topology (p.apply m))
    (hplaced : ∀ f : FlowId, f.index < t.traffic.flows.size →
      (t.placedFor (p.apply m)).costTerms f = .ok (t.termsFor (p.apply m) f)) (c : Costs α) :
    ((t.evaluatedOn m (p.apply m) usage).commit (t.change m p (p.apply m)) c).1.Coherent
      (p.apply m) := by
  rw [h.commit_evaluatedOn]
  exact ⟨h.built, h.isRouted, hroutable, hfollows.admissible, rfl,
    hfollows.size_eq.trans h.size_usage, fun hf ↦ hplaced _ hf, h.overwrite_current m,
    (size_overwrite ..).trans h.size_proposed⟩

/-! ### Taking a move back -/

/-- A tracker stays coherent when nothing but usages, proposed cost terms and lists of flows
change. -/
theorem onLinks (h : t.Coherent p) (hu : usage.size = t.topology.links.size)
    {proposed : Array (CostTerms α)} (hsize : proposed.size = t.traffic.flows.size) :
    ({ t.onLinks t.topology usage (t.routesFor p) [] [] with proposed } : Tracker α).Coherent p :=
  ⟨h.built, h.isRouted, h.routable, h.admissible, rfl, hu, h.placed, h.current_eq, hsize⟩

/-- **Taking a move back** routes the flows of the move again. It does not matter which routes they
are on, as long as the other flows are on the routes for the placement. -/
theorem revert_onLinks (h : t.Coherent p) (hadm : Admissible t.traffic t.topology routes)
    (hothers : ∀ f, f ∉ movedFlows t.traffic m → routes[f.index]? = (t.routesFor p)[f.index]?)
    (hu : usage.size = t.topology.links.size) (proposed : Array (CostTerms α))
    (affected marked : List FlowId) :
    ∃ usage', Ledger.Follows t.traffic t.topology routes usage (t.routesFor p) usage' ∧
      (({ t with proposed } : Tracker α).onLinks t.topology usage routes affected marked).revert m
          p =
        ⟨{ t.onLinks t.topology usage' (t.routesFor p) [] [] with proposed },
          .ok (movedFlows t.traffic m).length⟩ := by
  have hfound : ∀ f ∈ movedFlows t.traffic m,
      ∃ route, routeFlow t.traffic t.algorithm t.topology p f = .ok route :=
    fun f hf ↦ h.routable f (lt_of_mem_movedFlows h.built hf)
  have hroutes : Ledger.reassign t.traffic t.algorithm t.topology p (movedFlows t.traffic m)
      routes = t.routesFor p := Ledger.reassign_eq_routesFor hadm.size_eq hfound hothers
  have hrevert : (({ t with proposed } : Tracker α).onLinks t.topology usage routes affected
      marked).revert m p =
      ((({ t with proposed } : Tracker α).onLinks t.topology usage routes affected
        marked).rerouteMoved m p).andThen fun n t ↦ ⟨t.settled, .ok n⟩ := by
    rw [revert, ensureRouted, Tracker.onLinks, if_pos h.isRouted, Outcome.ok_andThen]
  rw [hrevert]
  rcases rerouteMoved_cases (t := { t with proposed }) (p := p) hadm hu m affected marked
    with ⟨usage', hfollows, -, heq⟩ | ⟨_, f, _, _, _, hsplit, _, _, hfailed, _⟩ |
      ⟨⟨f, hf, hsound⟩, _⟩
  · rw [hroutes] at hfollows
    rw [heq, hroutes]
    exact ⟨usage', hfollows, rfl⟩
  · -- no flow can fail: all of them had a route before the move
    obtain ⟨route, hroute⟩ := hfound f (hsplit ▸ List.mem_append_cons_self)
    rw [hroute] at hfailed
    cases hfailed
  · -- and these routes take existing links
    have hlt := lt_of_mem_movedFlows h.built hf
    obtain ⟨route, hroute⟩ := hfound f hf
    have hstored : (t.routesFor p)[f.index]? = some route := by
      rw [routesFor, Ledger.getElem?_routesFor hlt, Ledger.newRoute, hroute]
      rfl
    refine absurd ?_ hsound
    rw [hroute]
    exact h.admissible.lt_links hstored

/-- **Taking an evaluated move back**, unless its evaluation ended with a fault. -/
theorem revert_evaluate (h : t.Coherent p) (hproper : (t.evaluate m (p.apply m)).result.Proper) :
    ∃ (usage' : Array α) (proposed : Array (CostTerms α)),
      Ledger.Follows t.traffic t.topology (t.routesFor p) t.network.usage (t.routesFor p) usage' ∧
      proposed.size = t.traffic.flows.size ∧
      (t.evaluate m (p.apply m)).state.revert m p =
        ⟨{ t.onLinks t.topology usage' (t.routesFor p) [] [] with proposed },
          .ok (movedFlows t.traffic m).length⟩ := by
  rcases h.evaluate_cases m
    with ⟨usage, hfollows, _, _, heq⟩ |
      ⟨done, usage, affected, marked, e, hdone, hfollows, _, heq⟩ |
      ⟨_, e, he⟩
  · obtain ⟨usage', hfollows', hrevert⟩ := h.revert_onLinks (m := m) hfollows.admissible
      (fun f hf ↦ getElem?_routesFor_apply h.built hf) (hfollows.size_eq.trans h.size_usage)
      (t.evaluatedOn m (p.apply m) usage).proposed
      (movedFlows t.traffic m) (movedFlows t.traffic m).reverse
    rw [heq]
    exact ⟨usage', _, hfollows.trans hfollows', (size_overwrite ..).trans h.size_proposed, hrevert⟩
  · obtain ⟨usage', hfollows', hrevert⟩ := h.revert_onLinks (m := m) hfollows.admissible
      (fun f hf ↦ by
        have hf' : f ∉ done := fun hmem ↦ hf (hdone hmem)
        rw [Ledger.getElem?_reassign]
        simp [hf'])
      (hfollows.size_eq.trans h.size_usage) t.proposed affected marked
    rw [heq]
    exact ⟨usage', _, hfollows.trans hfollows', h.size_proposed, hrevert⟩
  · exact absurd he (hproper e)

end Coherent

/-! ### The first routing -/

section Start

variable {n : Network α} {traffic : Traffic α} {a : Algorithm} {w : Weights α}

/-- **A tracker whose flows were just routed** is coherent with the placement, whatever the links
carried at the start. -/
theorem coherent_route_start (hn : n.usage.size = n.topology.links.size) (hb : traffic.Built)
    {terms : CostTerms α} (h : ((start n traffic a w).route p).result = .ok terms) :
    ((start n traffic a w).route p).state.Coherent p ∧
      (start n traffic a w).Alike ((start n traffic a w).route p).state := by
  cases hcharge : Ledger.chargeAll traffic a p traffic.flowIds
      ⟨n, .empty traffic.flows.size n.topology.links.size⟩ with
  | error e =>
    rw [route_of_not_charged rfl hcharge] at h
    cases h
  | ok ledger =>
    rw [route_of_charged (t := start n traffic a w) rfl hcharge] at h ⊢
    obtain ⟨hroutable, hadm, usage, hu, rfl⟩ := Ledger.table_of_chargeAll hn hcharge
    obtain ⟨t, ht⟩ : ∃ t : Tracker α, { start n traffic a w with
        ledger := ⟨⟨n.topology, usage⟩,
          .ofRoutes (Ledger.routesFor traffic a n.topology p) n.topology.links.size⟩
        isRouted := true } = t := ⟨_, rfl⟩
    simp only [ht] at h ⊢
    have hterms : ∀ f ∈ t.traffic.flowIds, t.costTerms f = .ok (t.termsFor p f) := by
      intro f hf
      cases hrefresh : t.refresh with
      | error e =>
        rw [hrefresh] at h
        cases h
      | ok r =>
        obtain ⟨terms, hterms⟩ := exists_costTerms_of_refresh hrefresh hf
        have hsame : (t.placedFor p).costTerms f = t.costTerms f := by
          subst ht
          rfl
        rw [termsFor_eq (hsame.trans hterms), hterms]
    have hsize : t.current.size = t.traffic.flows.size := by
      subst ht
      simp [start]
    rw [refresh_eq hterms hsize]
    subst ht
    exact ⟨⟨hb, rfl, hroutable, hadm, rfl, hu, fun hf ↦ hterms _ (Id.mem_range.2 hf), rfl,
      by simp [start, Outcome.ofAttempt]⟩, rfl, rfl, rfl, rfl⟩

end Start

end Tracker

end NetOnChip
