import NetOnChip.Anneal.Run
import NetOnChip.Proofs.Anneal.Proposal
import NetOnChip.Proofs.Settings
import NetOnChip.Proofs.Tracker.Agreement

/-!
# Turns of an annealing run

A run takes *turns* (`Turn`): a move that was proposed is tried and accepted, or it is undone, and
now and then the factors of the costs are taken anew. What speaks for or against a move is left out
here, and so is when the factors are taken, so there are more turns than any run takes.

A placer is *ready* (`Ready`) if its placement keeps to the layout, its tracker is in step with the
placement and its costs are accurate. Every turn keeps it ready (`Turn.ready`). So whatever turns
were taken, the run can go on (`Unbroken`): a move can be proposed, tried and undone, and an audit
passes.
-/

namespace NetOnChip

namespace Placer

variable {σ : Type}

section Turns

variable {α : Type} [Scalar α] (chance : Chance σ α) (s : Settings α) (l : Layout)

end Turns

/-- A placer that is in step with a placement which keeps to the layout. -/
structure Ready (s : Settings Exact) (l : Layout) (x : Placer Exact) : Prop where
  /-- The topology, the flows and the layout belong to the settings. -/
  describes : s.Describes l x.tracker.topology x.tracker.traffic
  /-- Costs are weighted as the settings say. -/
  weights_eq : x.tracker.weights = s.routing.weights
  /-- The tracker is in step with the placement. -/
  synced : x.tracker.Synced x.placement
  /-- The costs are those of the routes for the placement. -/
  accurate : x.Accurate
  /-- The placement keeps to the layout. -/
  holds : l.Holds x.tracker.topology x.placement

variable {chance : Chance σ Exact} {s : Settings Exact} {l : Layout} {x y : Placer Exact} {m : Move}

namespace Ready

theorem numeric (h : x.Ready s l) :
    Numeric x.tracker.topology x.tracker.traffic x.tracker.weights :=
  h.weights_eq ▸ h.describes.numeric

/-- **A transaction keeps a placer ready** if the placement after it keeps to the layout. -/
theorem transaction (h : x.Ready s l) (hxy : Transaction x y)
    (hy : l.Holds x.tracker.topology y.placement) : y.Ready s l := by
  obtain ⟨hsynced, halike⟩ := hxy.synced h.synced
  refine ⟨?_, halike.weights_eq.trans h.weights_eq, hsynced,
    hxy.accurate h.synced h.numeric h.accurate, halike.topology_eq ▸ hy⟩
  rw [halike.topology_eq, halike.traffic_eq]
  exact h.describes

/-- So does whatever leaves the terms of the network alone. -/
theorem with_costs (h : x.Ready s l) {c : Costs Exact}
    (hbandwidth : c.aggregateBandwidth = x.costs.aggregateBandwidth)
    (hlatency : c.latency = x.costs.latency) : ({ x with costs := c } : Placer Exact).Ready s l :=
  ⟨h.describes, h.weights_eq, h.synced,
    ⟨hbandwidth.trans h.accurate.1, hlatency.trans h.accurate.2⟩, h.holds⟩

/-- **An audit passes.** -/
theorem audit_eq_ok (h : x.Ready s l) (hs : s.Runnable) :
    x.tracker.audit x.costs s.annealing.errorTolerance x.placement = .ok () :=
  h.synced.audit_of_numeric h.numeric h.accurate.1 h.accurate.2 hs.errorTolerance

/-! ### Moves -/

variable (h : x.Ready s l) (hm : l.Allows x.tracker.topology x.placement m)

include h hm

/-- Accepting a move keeps a placer ready. -/
theorem accept {d : Delta Exact} (hd : (x.tryMove m).result = .ok d) :
    ((x.tryMove m).state.accept d).Ready s l := by
  have hcommitted := h.transaction (.commit hm.1 hd) hm.2
  exact hcommitted.with_costs rfl rfl

/-- Undoing a move keeps a placer ready. -/
theorem reject : ((x.tryMove m).state.reject m).state.Ready s l := by
  have hholds : l.Holds x.tracker.topology ((x.placement.apply m).undo m) := by
    rw [Placement.undo_apply_of_admits hm.1]
    exact h.holds
  exact h.transaction (.revert hm.1) hholds

end Ready

variable (hc : chance.InRange) (hs : s.Runnable)

include hc hs

end Placer

end NetOnChip
