import NetOnChip.Proofs.Scalar.Number
import NetOnChip.Proofs.Tracker.Audit
import NetOnChip.Proofs.Tracker.Transaction

/-!
# Costs that are kept up to date

The costs of the network are calculated from scratch once. After that a committed move only adds the
change that its evaluation answered, which is made up from the flows that it routed again. Over
exact numbers (`Numeric`) this is as good as a calculation from scratch (`costs_eq_recomputed`):

* a change is the difference of the costs after and before the move, because every flow of the move
  is listed once and the terms of all other flows stay (`totalsFor_apply`);
* so the costs of a placer stay accurate (`Accurate`) through every transaction;
* and an audit has nothing to complain about, whatever tolerance it is given.
-/

namespace NetOnChip

/-! ### Changes and audits -/

namespace Tracker

section Scalars

variable {α : Type} [Scalar α] {t : Tracker α} {p : Placement} {m : Move}

/-- The change of the aggregate bandwidth cost adds up the differences of the flows of the move. -/
theorem aggregateBandwidth_change (p' : Placement) :
    (t.change m p p').aggregateBandwidth =
      total ((movedFlows t.traffic m).map fun f ↦
        (t.termsFor p' f).aggregateBandwidth - (t.termsFor p f).aggregateBandwidth) :=
  aggregateBandwidth_foldl_exchange ..

/-- The change of the latency cost adds up the differences of the flows of the move. -/
theorem latency_change (p' : Placement) :
    (t.change m p p').latency =
      total ((movedFlows t.traffic m).map fun f ↦
        (t.termsFor p' f).latency - (t.termsFor p f).latency) :=
  latency_foldl_exchange ..

/-- **An audit passes** if the costs are those of the routes for the placement, and no value differs
from itself beyond the tolerance. -/
theorem Synced.audit_eq_ok (h : t.Synced p) {c : Costs α} {tolerance : α}
    (husage : ∀ l : LinkId, l.index < t.topology.links.size →
      ¬ tolerance * Scalar.magnitude (t.traffic.demand (t.routesFor p) l) <
        Scalar.magnitude
          (t.traffic.demand (t.routesFor p) l - t.traffic.demand (t.routesFor p) l))
    (hbandwidth : CostTerm.aggregateBandwidth.check tolerance c.aggregateBandwidth
      (t.totalsFor p).aggregateBandwidth = .ok ())
    (hlatency : CostTerm.latency.check tolerance c.latency (t.totalsFor p).latency = .ok ()) :
    t.audit c tolerance p = .ok () := by
  have hadm : Admissible t.traffic t.topology (t.routesFor p) :=
    Ledger.admissible_routesFor h.wellFormed h.closed
  have hroutes : t.ledger.table.routes = t.routesFor p := by
    rw [h.ledger_eq, Ledger.routes_ofRoutes]
  rw [audit_eq_ok_iff, hroutes]
  refine ⟨h.isRouted, ⟨hadm.size_eq, fun {f route} hroute ↦ ?_⟩, fun {l u} hl hu ↦ ?_,
    t.totalsFor p, h.recompute_eq, fun term ↦ ?_⟩
  · have hf : f.index < t.traffic.flows.size :=
      hadm.size_eq ▸ (Array.getElem?_eq_some_iff.1 hroute).1
    exact (routeFlow_ensures h.wellFormed h.closed hf).of_eq_ok
      (Ledger.routeFlow_of_getElem?_routesFor h.routable hroute)
  · -- what a link carries is what is demanded of it
    rw [network, h.ledger_eq, Ledger.usageOf_ofRoutes hl] at hu
    cases hu
    exact husage l hl
  · cases term with
    | aggregateBandwidth => exact CostTerm.check_eq_ok_iff.1 hbandwidth
    | latency => exact CostTerm.check_eq_ok_iff.1 hlatency

end Scalars

end Tracker

/-! ### Exact numbers -/

namespace Tracker

variable {t : Tracker Exact} {p : Placement}

theorem Alike.numeric {t' : Tracker Exact} (h : t.Alike t')
    (hn : Numeric t.topology t.traffic t.weights) :
    Numeric t'.topology t'.traffic t'.weights := by
  rwa [h.topology_eq, h.traffic_eq, h.weights_eq]

/-- The cost terms of every flow are numbers. -/
theorem isNumber_termsFor (hn : Numeric t.topology t.traffic t.weights)
    (hw : t.topology.WellFormed) (hc : t.topology.Closed) {f : FlowId}
    (hf : f ∈ t.traffic.flowIds) :
    (t.termsFor p f).aggregateBandwidth.isNumber ∧ (t.termsFor p f).latency.isNumber := by
  have hlt : f.index < t.traffic.flows.size := Id.mem_range.1 hf
  have hadm : Admissible t.traffic t.topology (t.routesFor p) := Ledger.admissible_routesFor hw hc
  have hflow := Array.getElem?_eq_getElem hlt
  have hroute := Array.getElem?_eq_getElem (hadm.size_eq.symm ▸ hlt)
  obtain ⟨terms, hterms, hnumbers⟩ := hn.costTerms hw hc (Array.mem_of_getElem? hflow)
    (hadm.lt_links hroute)
  rw [termsFor, costTerms_placedFor, Traffic.flow, Attempt.entry_eq_ok_iff.2 hflow,
    Attempt.ok_bind, Attempt.entry_eq_ok_iff.2 hroute, Attempt.ok_bind, hterms]
  exact hnumbers

/-- **A move changes the costs by what its flows change.** -/
theorem Synced.totalsFor_apply (h : t.Synced p) (hn : Numeric t.topology t.traffic t.weights)
    (m : Move) :
    (t.totalsFor (p.apply m)).aggregateBandwidth =
        (t.totalsFor p).aggregateBandwidth + (t.change m p (p.apply m)).aggregateBandwidth ∧
      (t.totalsFor (p.apply m)).latency =
        (t.totalsFor p).latency + (t.change m p (p.apply m)).latency := by
  -- a flow that is listed twice would be counted twice, and one that is missing not at all
  have hmoved : (movedFlows t.traffic m).Nodup := nodup_unmarked [] _
  have hsubset : movedFlows t.traffic m ⊆ t.traffic.flowIds := fun f hf ↦
    Id.mem_range.2 (lt_of_mem_movedFlows h.built hf)
  have hnumbers : ∀ q, ∀ f ∈ t.traffic.flowIds,
      (t.termsFor q f).aggregateBandwidth.isNumber ∧ (t.termsFor q f).latency.isNumber :=
    fun q f hf ↦ isNumber_termsFor hn h.wellFormed h.closed hf
  have hsame : ∀ f ∈ t.traffic.flowIds, f ∉ movedFlows t.traffic m →
      t.termsFor (p.apply m) f = t.termsFor p f := fun f _ hf ↦ termsFor_apply h.built hf
  simp only [totalsFor, totals, aggregateBandwidth_change, latency_change, total, List.map_map]
  constructor
  · exact Exact.foldl_add_eq_add_changes (Id.nodup_range _) hmoved hsubset
      (fun f hf ↦ (hnumbers _ f hf).1) (fun f hf ↦ (hnumbers p f hf).1)
      fun f hf hout ↦ congrArg CostTerms.aggregateBandwidth (hsame f hf hout)
  · exact Exact.foldl_add_eq_add_changes (Id.nodup_range _) hmoved hsubset
      (fun f hf ↦ (hnumbers _ f hf).2) (fun f hf ↦ (hnumbers p f hf).2)
      fun f hf hout ↦ congrArg CostTerms.latency (hsame f hf hout)

/-- The costs of all flows are numbers. -/
theorem isNumber_totalsFor (hn : Numeric t.topology t.traffic t.weights)
    (hw : t.topology.WellFormed) (hc : t.topology.Closed) :
    (t.totalsFor p).aggregateBandwidth.isNumber ∧ (t.totalsFor p).latency.isNumber := by
  simp only [totalsFor, totals, total, List.map_map]
  constructor
  · exact Exact.isNumber_foldl_add
      (List.forall_mem_map.2 fun f hf ↦ (isNumber_termsFor hn hw hc hf).1)
  · exact Exact.isNumber_foldl_add
      (List.forall_mem_map.2 fun f hf ↦ (isNumber_termsFor hn hw hc hf).2)

/-- A cost term that is tracked exactly passes its check. -/
theorem check_eq_ok (term : CostTerm) {tolerance cost : Exact} (htolerance : 0 ≤ tolerance)
    (hcost : cost.isNumber) : term.check tolerance cost cost = .ok () := by
  have hmagnitude := Exact.zero_le_magnitude hcost
  have hscale : 0 ≤ Scalar.larger (Scalar.magnitude cost) (Scalar.magnitude cost) :=
    Exact.larger_of_both hmagnitude hmagnitude
  have hfloor : ¬ (term.floor : Exact) < 0 := by cases term <;> decide +kernel
  rw [CostTerm.check_eq_ok_iff, Exact.sub_self_of_isNumber hcost]
  exact Exact.larger_of_both (P := fun a ↦ ¬ a < 0)
    (Exact.not_mul_lt_zero htolerance hscale) hfloor

/-- **An audit passes** with any tolerance, if the costs are those of the routes for the
placement. -/
theorem Synced.audit_of_numeric (h : t.Synced p) (hn : Numeric t.topology t.traffic t.weights)
    {c : Costs Exact} (hbandwidth : c.aggregateBandwidth = (t.totalsFor p).aggregateBandwidth)
    (hlatency : c.latency = (t.totalsFor p).latency) {tolerance : Exact}
    (htolerance : 0 ≤ tolerance) : t.audit c tolerance p = .ok () := by
  obtain ⟨hbandwidth', hlatency'⟩ := isNumber_totalsFor (p := p) hn h.wellFormed h.closed
  refine h.audit_eq_ok (fun l _ ↦ ?_) ?_ ?_
  · have hdemand := hn.demand (t.routesFor p) l
    rw [Exact.sub_self_of_isNumber hdemand]
    exact Exact.not_mul_lt_zero htolerance (Exact.zero_le_magnitude hdemand)
  · rw [hbandwidth]
    exact check_eq_ok _ htolerance hbandwidth'
  · rw [hlatency]
    exact check_eq_ok _ htolerance hlatency'

end Tracker

/-! ### Runs -/

namespace Placer

/-- The network terms of the costs are those of the routes for the placement. -/
def Accurate {α : Type} [Scalar α] (s : Placer α) : Prop :=
  s.costs.aggregateBandwidth = (s.tracker.totalsFor s.placement).aggregateBandwidth ∧
    s.costs.latency = (s.tracker.totalsFor s.placement).latency

/-- **A transaction keeps the costs accurate.** -/
theorem Transaction.accurate {s s' : Placer Exact} (h : Transaction s s')
    (hs : s.tracker.Synced s.placement)
    (hn : Numeric s.tracker.topology s.tracker.traffic s.tracker.weights) (ha : s.Accurate) :
    s'.Accurate := by
  have halike := (h.synced hs).2
  rw [Accurate, halike.totalsFor_eq]
  cases h with
  | @commit m d hm heval =>
    obtain ⟨_, _, rfl⟩ := hs.of_evaluate_eq_ok heval
    obtain ⟨hbandwidth, hlatency⟩ := hs.totalsFor_apply hn m
    rw [hbandwidth, hlatency, ← ha.1, ← ha.2]
    exact ⟨rfl, rfl⟩
  | @revert m hm =>
    -- neither the placement nor the costs are other than before
    rw [Placement.undo_apply_of_admits hm]
    exact ha

/-- **Transactions keep the costs accurate**, however many there are. -/
theorem accurate_of_transactions {s s' : Placer Exact}
    (h : Relation.ReflTransGen Transaction s s') (hs : s.tracker.Synced s.placement)
    (hn : Numeric s.tracker.topology s.tracker.traffic s.tracker.weights) (ha : s.Accurate) :
    s'.Accurate := by
  induction h with
  | refl => exact ha
  | tail hrun hstep ih =>
    obtain ⟨hsynced, halike⟩ := synced_of_transactions hrun hs
    exact hstep.accurate hsynced (halike.numeric hn) ih

variable {topology : Topology Exact} {traffic : Traffic Exact} {a : Algorithm} {w : Weights Exact}
  {p : Placement} {terms : CostTerms Exact}

/-- **Costs that are kept up to date are exact.** Once the costs of the first routing were taken,
and after any number of completed transactions, the network terms of the costs are those of a
calculation from scratch; the change that the evaluation of a move answers is the difference of such
calculations after and before it; and an audit passes with every tolerance. -/
theorem costs_eq_recomputed (htopology : topology.Built) (hclosed : topology.Closed)
    (htraffic : traffic.Built) (hn : Numeric topology traffic w)
    (hroute : ((Tracker.fresh topology traffic a w).route p).result = .ok terms)
    (c : Costs Exact) :
    ∃ c' t', ((Tracker.fresh topology traffic a w).route p).state.loadCosts c = .ok (c', t') ∧
      ∀ s, Relation.ReflTransGen Transaction ⟨t', p, c'⟩ s →
        ∃ before, s.tracker.recompute = .ok before ∧
          s.costs.aggregateBandwidth = before.aggregateBandwidth ∧
          s.costs.latency = before.latency ∧
          (∀ m d, s.placement.Admits m →
            (s.tracker.evaluate m (s.placement.apply m)).result = .ok d →
              ∃ after, (s.tracker.evaluate m (s.placement.apply m)).state.recompute = .ok after ∧
                d.aggregateBandwidth = after.aggregateBandwidth - before.aggregateBandwidth ∧
                d.latency = after.latency - before.latency) ∧
          ∀ tolerance, 0 ≤ tolerance →
            s.tracker.audit s.costs tolerance s.placement = .ok () := by
  obtain ⟨hstart, halike⟩ := Tracker.synced_route_fresh htopology.wellFormed hclosed htraffic hroute
  refine ⟨_, _, hstart.loadCosts_eq c, fun s hrun ↦ ?_⟩
  obtain ⟨hs, halike'⟩ := synced_of_run htopology hclosed htraffic hroute hrun
  have hns := halike'.numeric hn
  have haccurate := accurate_of_transactions hrun hstart (halike.numeric hn) ⟨rfl, rfl⟩
  obtain ⟨hbandwidth, hlatency⟩ := haccurate
  refine ⟨_, hs.recompute_eq, hbandwidth, hlatency, fun m d _ heval ↦ ?_, fun tolerance htol ↦ ?_⟩
  · obtain ⟨_, hstate, rfl⟩ := hs.of_evaluate_eq_ok heval
    have hnumbers := fun q ↦ Tracker.isNumber_totalsFor (p := q) hns hs.wellFormed hs.closed
    obtain ⟨hbandwidth', hlatency'⟩ := hs.totalsFor_apply hns m
    rw [hstate]
    exact ⟨_, hs.recompute_evaluated m,
      Exact.eq_sub_of_eq_add (hnumbers s.placement).1 (hnumbers _).1 hbandwidth',
      Exact.eq_sub_of_eq_add (hnumbers s.placement).2 (hnumbers _).2 hlatency'⟩
  · exact hs.audit_of_numeric hns hbandwidth hlatency htol

/-- All quantities on the row of three routers are numbers, and one of its flows has no limit. -/
theorem numeric_line : Numeric Line.topology Line.traffic Line.weights where
  router_latency := by decide
  link_latency := by decide
  bandwidth := by decide
  priority := by decide
  limit := by decide
  latency := rfl
  overrun := rfl

/-- On this row the change of a move is the difference of two calculations from scratch, and the
costs are exact after a move was committed and another one taken back. -/
theorem costs_eq_recomputed_line :
    ∃ c t, (Line.tracker.route (Line.placed 1)).state.loadCosts .initial = .ok (c, t) ∧
      (∃ after, (t.evaluate (Line.shift 1 2)
          ((Line.placed 1).apply (Line.shift 1 2))).state.recompute = .ok after ∧
        .number 5 = after.aggregateBandwidth - c.aggregateBandwidth ∧
        .number 6 = after.latency - c.latency) ∧
      ∃ s, Relation.ReflTransGen Transaction ⟨t, Line.placed 1, c⟩ s ∧
        s.placement = Line.placed 2 ∧
        s.tracker.recompute = .ok ⟨s.costs.aggregateBandwidth, s.costs.latency⟩ ∧
        s.tracker.audit s.costs 0 s.placement = .ok () := by
  obtain ⟨c, t, hload, hruns⟩ := costs_eq_recomputed Line.built_topology Line.closed_topology
    Line.built_traffic numeric_line Line.result_route .initial
  obtain ⟨hstart, -⟩ := Tracker.synced_route_fresh Line.built_topology.wellFormed
    Line.closed_topology Line.built_traffic Line.result_route
  have hloaded := hload.symm.trans (hstart.loadCosts_eq .initial)
  rw [Except.ok.injEq, Prod.mk.injEq] at hloaded
  obtain ⟨-, rfl⟩ := hloaded
  refine ⟨c, _, hload, ?_, ?_⟩
  · obtain ⟨before, _, hbandwidth, hlatency, hchange, _⟩ := hruns _ .refl
    rw [hbandwidth, hlatency]
    have hadmits : (Line.placed 1).Admits (Line.shift 1 2) :=
      Placement.admits_of_forall (by decide)
    exact hchange (Line.shift 1 2) _ hadmits Line.result_evaluate
  · obtain ⟨s, hrun, hplacement⟩ := exists_transactions_line c
    obtain ⟨before, hbefore, hbandwidth, hlatency, _, haudit⟩ := hruns s hrun
    refine ⟨s, hrun, hplacement, ?_, haudit 0 (by decide)⟩
    rw [hbandwidth, hlatency]
    exact hbefore

end Placer

end NetOnChip
