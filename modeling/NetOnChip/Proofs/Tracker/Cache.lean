import NetOnChip.Proofs.Tracker.Transaction

/-!
# The cache of the cost terms

A tracker keeps the cost terms of every flow. A committed move copies as many of the proposed terms
as its change counts, and a move that is taken back copies none, so the cache is right only as long
as the list of affected flows, their count, the marks and the routes keep pace with each other.

They do, whatever the links carry at the start and wherever they lead (`cache_exact`): after any
number of transactions the cached terms are those of the stored routes. This holds of doubles bit
for bit, since nothing is assumed of the scalars, and it has nothing to do with the usage of the
links.

Links that lead nowhere may make the evaluation of a move end with a fault. Nothing follows after a
fault, so the transactions here are those without one (`ProperTransaction`).
-/

namespace NetOnChip

variable {α : Type} [Scalar α]

namespace Placer

/-- What a completed transaction makes of a placer, when the evaluation of the move did not end with
a fault. The move may be any that the placement admits. -/
inductive ProperTransaction : Placer α → Placer α → Prop where
  /-- The move could be evaluated, and it is committed. -/
  | commit {s : Placer α} {m : Move} {d : Delta α} :
      s.placement.Admits m → (s.tracker.evaluate m (s.placement.apply m)).result = .ok d →
        ProperTransaction s
          { tracker := ((s.tracker.evaluate m (s.placement.apply m)).state.commit d s.costs).1
            placement := s.placement.apply m
            costs := ((s.tracker.evaluate m (s.placement.apply m)).state.commit d s.costs).2 }
  /-- The move is undone and taken back, whether or not it could be evaluated. -/
  | revert {s : Placer α} {m : Move} :
      s.placement.Admits m → (s.tracker.evaluate m (s.placement.apply m)).result.Proper →
        ProperTransaction s
          { s with
            tracker := ((s.tracker.evaluate m (s.placement.apply m)).state.revert m
              ((s.placement.apply m).undo m)).state
            placement := (s.placement.apply m).undo m }

/-- Where the tracker is in step with the placement, no transaction has a fault. -/
theorem Transaction.proper {s s' : Placer α} (h : Transaction s s')
    (hs : s.tracker.Synced s.placement) : ProperTransaction s s' := by
  cases h with
  | commit hm heval => exact .commit hm heval
  | @revert m hm => exact .revert hm (hs.proper_evaluate m)

/-- **A transaction keeps the tracker coherent with the placement.** -/
theorem ProperTransaction.coherent {s s' : Placer α} (h : ProperTransaction s s')
    (hs : s.tracker.Coherent s.placement) :
    s'.tracker.Coherent s'.placement ∧ s.tracker.Alike s'.tracker := by
  cases h with
  | @commit m d hm heval =>
    rcases hs.evaluate_cases m
      with ⟨usage, hfollows, hroutable, hplaced, heq⟩ | ⟨_, _, _, _, e, _, _, _, heq⟩ | ⟨_, e, he⟩
    · rw [heq] at heval
      cases heval
      rw [heq]
      refine ⟨hs.commit hfollows hroutable hplaced s.costs, ?_⟩
      rw [hs.commit_evaluatedOn]
      exact ⟨rfl, rfl, rfl, rfl⟩
    · rw [heq] at heval
      cases heval
    · rw [he] at heval
      cases heval
  | @revert m hm hproper =>
    obtain ⟨usage, proposed, hfollows, hsize, heq⟩ := hs.revert_evaluate hproper
    rw [Placement.undo_apply_of_admits hm, heq]
    exact ⟨hs.onLinks (hfollows.size_eq.trans hs.size_usage) hsize, rfl, rfl, rfl, rfl⟩

/-- **Transactions keep the tracker coherent with the placement**, however many there are. -/
theorem coherent_of_transactions {s s' : Placer α}
    (h : Relation.ReflTransGen ProperTransaction s s') (hs : s.tracker.Coherent s.placement) :
    s'.tracker.Coherent s'.placement ∧ s.tracker.Alike s'.tracker := by
  induction h with
  | refl => exact ⟨hs, rfl, rfl, rfl, rfl⟩
  | tail _ hstep ih =>
    obtain ⟨hcoherent, halike⟩ := ih
    obtain ⟨hcoherent', halike'⟩ := hstep.coherent hcoherent
    exact ⟨hcoherent', halike.trans halike'⟩

/-- Where the tracker is in step with the placement at the start, there are no faults at all. -/
theorem proper_of_transactions {s s' : Placer α} (h : Relation.ReflTransGen Transaction s s')
    (hs : s.tracker.Synced s.placement) : Relation.ReflTransGen ProperTransaction s s' := by
  induction h with
  | refl => exact .refl
  | tail hrun hstep ih => exact ih.tail (hstep.proper (synced_of_transactions hrun hs).1)

end Placer

/-- **A coherent tracker stores the costs of its routes.** -/
theorem Tracker.Coherent.cached {t : Tracker α} {p : Placement} (h : t.Coherent p) {f : FlowId}
    {flow : Flow α} (hflow : t.traffic.flow f = .ok flow) :
    ∃ route latency, t.routeOf f = .ok route ∧ t.topology.routeLatency route = .ok latency ∧
      t.current[f.index]? =
        some ⟨flow.aggregateBandwidthCost route, flow.latencyCost t.weights latency⟩ := by
  have hf : f.index < t.traffic.flows.size :=
    (Array.getElem?_eq_some_iff.1 (Attempt.entry_eq_ok_iff.1 hflow)).1
  have hterms := h.costTerms_eq hf
  rw [Tracker.costTerms, hflow, Attempt.ok_bind] at hterms
  obtain ⟨route, hroute, hterms⟩ := Attempt.bind_eq_ok_iff.1 hterms
  obtain ⟨latency, hlatency, hterms⟩ := Attempt.bind_eq_ok_iff.1 hterms
  refine ⟨route, latency, hroute, hlatency, ?_⟩
  rw [h.getElem?_current hf, ← Except.ok.inj hterms]

namespace Placer

variable {n : Network α} {traffic : Traffic α} {a : Algorithm} {w : Weights α} {p : Placement}
  {terms : CostTerms α} {c : Costs α} {s : Placer α}

/-- **The cache is exact.** After the first routing and any number of completed transactions, the
cached terms of every flow are those of its stored route. They add up, in the order of the flows, to
what a calculation from scratch answers, and taking any of the costs from scratch changes nothing
about the tracker. -/
theorem cache_exact (hn : n.usage.size = n.topology.links.size) (htraffic : traffic.Built)
    (hroute : ((Tracker.start n traffic a w).route p).result = .ok terms)
    (hrun : Relation.ReflTransGen ProperTransaction
      ⟨((Tracker.start n traffic a w).route p).state, p, c⟩ s) :
    let bandwidth := Tracker.total (s.tracker.current.toList.map (·.aggregateBandwidth))
    let latency := Tracker.total (s.tracker.current.toList.map (·.latency))
    s.tracker.current.size = traffic.flows.size ∧
      (∀ f flow, traffic.flow f = .ok flow →
        ∃ route latency, s.tracker.routeOf f = .ok route ∧
          n.topology.routeLatency route = .ok latency ∧
          s.tracker.current[f.index]? =
            some ⟨flow.aggregateBandwidthCost route, flow.latencyCost w latency⟩) ∧
      s.tracker.recompute = .ok ⟨bandwidth, latency⟩ ∧
      s.tracker.refreshAggregateBandwidth = .ok (bandwidth, s.tracker) ∧
      s.tracker.refreshLatency = .ok (latency, s.tracker) ∧
      ∀ c, s.tracker.loadCosts c =
        .ok ({ c with aggregateBandwidth := bandwidth, latency }, s.tracker) := by
  intro bandwidth latency
  obtain ⟨hstart, halike⟩ := Tracker.coherent_route_start hn htraffic hroute
  obtain ⟨hs, halike'⟩ := coherent_of_transactions hrun hstart
  have halike := halike.trans halike'
  have htraffic' : s.tracker.traffic = traffic := halike.traffic_eq
  have hweights : s.tracker.weights = w := halike.weights_eq
  have htopology : s.tracker.topology = n.topology := halike.topology_eq
  have htotals : s.tracker.totalsFor s.placement = ⟨bandwidth, latency⟩ := hs.totalsFor_eq
  have hloaded := hs.loadCosts_eq
  rw [htotals] at hloaded
  refine ⟨htraffic' ▸ hs.size_current, fun f flow hflow ↦ ?_, htotals ▸ hs.recompute_eq, ?_, ?_,
    hloaded⟩
  · rw [← htopology, ← hweights]
    exact hs.cached (htraffic'.symm ▸ hflow)
  · rw [hs.refreshAggregateBandwidth_eq, htotals]
  · rw [hs.refreshLatency_eq, htotals]

/-- On the row of three routers, after a move that was committed and one that failed and was taken
back. -/
theorem cache_exact_line :
    ∃ s, Relation.ReflTransGen ProperTransaction
      ⟨(Line.tracker.route (Line.placed 1)).state, Line.placed 1, .initial⟩ s ∧
        s.placement = Line.placed 2 ∧ s.tracker.current.size = 2 ∧
        ∀ c, ∃ terms, s.tracker.recompute = .ok terms ∧
          s.tracker.loadCosts c =
            .ok ({ c with
              aggregateBandwidth := terms.aggregateBandwidth
              latency := terms.latency }, s.tracker) := by
  have hstart := (Tracker.synced_route_fresh Line.built_topology.wellFormed Line.closed_topology
    Line.built_traffic Line.result_route).1
  obtain ⟨s, hrun, hplacement⟩ := exists_transactions_line .initial
  have hproper := proper_of_transactions hrun hstart
  obtain ⟨hsize, _, hrecompute, _, _, hload⟩ :=
    cache_exact (n := .ofTopology Line.topology) (by decide) Line.built_traffic Line.result_route
      hproper
  exact ⟨s, hproper, hplacement, hsize, fun c ↦ ⟨_, hrecompute, hload c⟩⟩

end Placer

end NetOnChip
