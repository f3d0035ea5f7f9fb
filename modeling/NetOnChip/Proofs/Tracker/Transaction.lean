import Mathlib.Logic.Relation
import NetOnChip.Placer
import NetOnChip.Proofs.Tracker.Synced

/-!
# Transactions

A transaction tries a move and completes it: the move is evaluated on the placement after it, and
then it is committed with the change that was answered, or the placement is restored and the move is
taken back. A move that could not be evaluated can only be taken back.

Every transaction leaves the tracker in step with the placement (`Transaction.synced`). Two things
follow for any number of transactions after the first routing.

* The history leaves no trace: the routes, the crossings of every link and the usage of every link
  are those of a fresh tracker that routes its flows for the present placement (`ledger_eq_fresh`).
* Taking a move back never fails, whatever came of its evaluation, and it restores the ledger and
  the cost terms (`revert_after_evaluate`).

Both hold of doubles bit for bit, since nothing is assumed of the scalars.
-/

namespace NetOnChip

variable {α : Type} [Scalar α]

namespace Placer

/-- What a completed transaction makes of a placer. The move may be any that the placement admits.
-/
inductive Transaction : Placer α → Placer α → Prop where
  /-- The move could be evaluated, and it is committed. -/
  | commit {s : Placer α} {m : Move} {d : Delta α} :
      s.placement.Admits m → (s.tracker.evaluate m (s.placement.apply m)).result = .ok d →
        Transaction s
          { tracker := ((s.tracker.evaluate m (s.placement.apply m)).state.commit d s.costs).1
            placement := s.placement.apply m
            costs := ((s.tracker.evaluate m (s.placement.apply m)).state.commit d s.costs).2 }
  /-- The move is undone and taken back, whether or not it could be evaluated. -/
  | revert {s : Placer α} {m : Move} :
      s.placement.Admits m →
        Transaction s
          { s with
            tracker := ((s.tracker.evaluate m (s.placement.apply m)).state.revert m
              ((s.placement.apply m).undo m)).state
            placement := (s.placement.apply m).undo m }

/-- **A transaction keeps the tracker in step with the placement.** -/
theorem Transaction.synced {s s' : Placer α} (h : Transaction s s')
    (hs : s.tracker.Synced s.placement) :
    s'.tracker.Synced s'.placement ∧ s.tracker.Alike s'.tracker := by
  cases h with
  | @commit m d hm heval =>
    obtain ⟨hroutable, hstate, rfl⟩ := hs.of_evaluate_eq_ok heval
    rw [hstate]
    refine ⟨hs.commit hroutable s.costs, ?_⟩
    rw [hs.commit_evaluated]
    exact ⟨rfl, rfl, rfl, rfl⟩
  | @revert m hm =>
    obtain ⟨proposed, hsize, heq⟩ := hs.revert_evaluate m
    rw [Placement.undo_apply_of_admits hm, heq]
    exact ⟨hs.placedFor hsize, rfl, rfl, rfl, rfl⟩

/-- **Transactions keep the tracker in step with the placement**, however many there are. -/
theorem synced_of_transactions {s s' : Placer α} (h : Relation.ReflTransGen Transaction s s')
    (hs : s.tracker.Synced s.placement) :
    s'.tracker.Synced s'.placement ∧ s.tracker.Alike s'.tracker := by
  induction h with
  | refl => exact ⟨hs, rfl, rfl, rfl, rfl⟩
  | tail _ hstep ih =>
    obtain ⟨hsynced, halike⟩ := ih
    obtain ⟨hsynced', halike'⟩ := hstep.synced hsynced
    exact ⟨hsynced', halike.trans halike'⟩

/-! ### Runs from the first routing on -/

variable {topology : Topology α} {traffic : Traffic α} {a : Algorithm} {w : Weights α}
  {p : Placement} {terms : CostTerms α} {c : Costs α} {s : Placer α}

/-- After the first routing and any number of transactions the tracker is in step with the
placement, and it still has the flows, the algorithm, the weights and the topology that it started
with. -/
theorem synced_of_run (htopology : topology.Built) (hclosed : topology.Closed)
    (htraffic : traffic.Built)
    (hroute : ((Tracker.fresh topology traffic a w).route p).result = .ok terms)
    (hrun : Relation.ReflTransGen Transaction
      ⟨((Tracker.fresh topology traffic a w).route p).state, p, c⟩ s) :
    s.tracker.Synced s.placement ∧ (Tracker.fresh topology traffic a w).Alike s.tracker := by
  obtain ⟨hstart, halike⟩ := Tracker.synced_route_fresh htopology.wellFormed hclosed htraffic hroute
  obtain ⟨hsynced, halike'⟩ := synced_of_transactions hrun hstart
  exact ⟨hsynced, halike.trans halike'⟩

/-- **The history leaves no trace.** After any number of completed transactions a fresh tracker
could route its flows for the present placement, and it would have the same ledger. -/
theorem ledger_eq_fresh (htopology : topology.Built) (hclosed : topology.Closed)
    (htraffic : traffic.Built)
    (hroute : ((Tracker.fresh topology traffic a w).route p).result = .ok terms)
    (hrun : Relation.ReflTransGen Transaction
      ⟨((Tracker.fresh topology traffic a w).route p).state, p, c⟩ s) :
    (∃ terms', ((Tracker.fresh topology traffic a w).route s.placement).result = .ok terms') ∧
      s.tracker.ledger = ((Tracker.fresh topology traffic a w).route s.placement).state.ledger := by
  obtain ⟨hsynced, halike⟩ := synced_of_run htopology hclosed htraffic hroute hrun
  have htraffic' : s.tracker.traffic = traffic := halike.traffic_eq
  have halgorithm : s.tracker.algorithm = a := halike.algorithm_eq
  have htopology' : s.tracker.topology = topology := halike.topology_eq
  have hroutable := hsynced.routable
  have hledger := hsynced.ledger_eq
  rw [Tracker.routesFor] at hledger
  rw [htraffic', halgorithm, htopology'] at hroutable hledger
  have hfresh := Tracker.route_fresh_of_routable (w := w) htopology.wellFormed hclosed hroutable
  rw [hfresh]
  exact ⟨⟨_, rfl⟩, hledger⟩

/-- On a row of three routers a block is moved by one column, and then it comes back from a column
that has no router. -/
theorem exists_transactions_line (c : Costs Exact) :
    ∃ s, Relation.ReflTransGen Transaction
      ⟨(Line.tracker.route (Line.placed 1)).state, Line.placed 1, c⟩ s ∧
        s.placement = Line.placed 2 := by
  have hthere : (Line.placed 1).Admits (Line.shift 1 2) :=
    Placement.admits_of_forall (by decide)
  have hback : ((Line.placed 1).apply (Line.shift 1 2)).Admits (Line.shift 2 3) :=
    Placement.admits_of_forall (by decide)
  have hplacement : (((Line.placed 1).apply (Line.shift 1 2)).apply (Line.shift 2 3)).undo
      (Line.shift 2 3) = Line.placed 2 := by decide
  exact ⟨_, .tail (.tail .refl (.commit hthere Line.result_evaluate)) (.revert hback), hplacement⟩

/-- The ledger after these two moves is that of a fresh start. -/
theorem ledger_eq_fresh_line :
    ∃ s, Relation.ReflTransGen Transaction
      ⟨(Line.tracker.route (Line.placed 1)).state, Line.placed 1, .initial⟩ s ∧
        s.tracker.ledger = (Line.tracker.route (Line.placed 2)).state.ledger := by
  obtain ⟨s, hrun, hplacement⟩ := exists_transactions_line .initial
  have h := ledger_eq_fresh Line.built_topology Line.closed_topology Line.built_traffic
    Line.result_route hrun
  exact ⟨s, hrun, hplacement ▸ h.2⟩

/-- **Taking a move back never fails.** Whatever came of the evaluation of a move, the flows of its
blocks are routed again, each once, and the ledger and the cost terms are those from before. -/
theorem revert_after_evaluate (htopology : topology.Built) (hclosed : topology.Closed)
    (htraffic : traffic.Built)
    (hroute : ((Tracker.fresh topology traffic a w).route p).result = .ok terms)
    (hrun : Relation.ReflTransGen Transaction
      ⟨((Tracker.fresh topology traffic a w).route p).state, p, c⟩ s)
    {m : Move} (hm : s.placement.Admits m) :
    let flows := traffic.flowIds.filter fun f ↦ m.any fun r ↦ traffic.touches r.block f
    let o := s.tracker.evaluate m (s.placement.apply m)
    (s.placement.apply m).undo m = s.placement ∧
      o.result.Proper ∧ (∀ d, o.result = .ok d → d.rerouted = flows.length) ∧
        ∃ t, o.state.revert m ((s.placement.apply m).undo m) = ⟨t, .ok flows.length⟩ ∧
          t.ledger = s.tracker.ledger ∧ t.current = s.tracker.current ∧ t.affected = [] := by
  intro flows o
  obtain ⟨hsynced, halike⟩ := synced_of_run htopology hclosed htraffic hroute hrun
  have htraffic' : s.tracker.traffic = traffic := halike.traffic_eq
  have hlength : (Tracker.movedFlows s.tracker.traffic m).length = flows.length := by
    rw [htraffic']
    exact Tracker.length_movedFlows htraffic m
  have hundo := Placement.undo_apply_of_admits hm
  refine ⟨hundo, hsynced.proper_evaluate m, fun d hd ↦ ?_, ?_⟩
  · obtain ⟨_, _, rfl⟩ := hsynced.of_evaluate_eq_ok hd
    rw [← hlength, Tracker.rerouted_change]
  · obtain ⟨proposed, _, heq⟩ := hsynced.revert_evaluate m
    rw [hundo, ← hlength]
    exact ⟨_, heq, hsynced.ledger_eq.symm, rfl, rfl⟩

/-- After these two moves the block is sent once more to the column that has no router. -/
theorem revert_after_evaluate_line :
    ∃ s, Relation.ReflTransGen Transaction
      ⟨(Line.tracker.route (Line.placed 1)).state, Line.placed 1, .initial⟩ s ∧
        ∃ t, (s.tracker.evaluate (Line.shift 2 3)
            (s.placement.apply (Line.shift 2 3))).state.revert (Line.shift 2 3)
              ((s.placement.apply (Line.shift 2 3)).undo (Line.shift 2 3)) = ⟨t, .ok 2⟩ ∧
          t.ledger = s.tracker.ledger ∧ t.current = s.tracker.current ∧ t.affected = [] := by
  obtain ⟨s, hrun, hplacement⟩ := exists_transactions_line .initial
  have hm : s.placement.Admits (Line.shift 2 3) :=
    hplacement ▸ Placement.admits_of_forall (by decide)
  have h := revert_after_evaluate Line.built_topology Line.closed_topology Line.built_traffic
    Line.result_route hrun hm
  exact ⟨s, hrun, h.2.2.2⟩

end Placer

end NetOnChip
