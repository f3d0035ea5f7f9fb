import NetOnChip.Proofs.Route.Ledger
import NetOnChip.Proofs.Topology.Built
import NetOnChip.Proofs.Traffic
import NetOnChip.Scalar.Exact
import NetOnChip.Tracker

/-!
# The first routing

A tracker starts on a topology with unused links. Routing its flows either fails, and then the
tracker is as it was at the start, or it ends in the ledger of the routes that are found for the
placement (`route_fresh_cases`).

`Line` is a small network for examples: three routers in a row, and two flows between two blocks.
-/

namespace NetOnChip

variable {α : Type} [Scalar α]

namespace Tracker

variable (topology : Topology α) (traffic : Traffic α) (a : Algorithm) (w : Weights α)
  (p : Placement)

/-- A tracker for flows that are not routed yet, on a topology with unused links. -/
def fresh : Tracker α :=
  start (.ofTopology topology) traffic a w

/-- A fresh tracker after its flows were routed for a placement, and before their costs were
taken. -/
def routedFor : Tracker α :=
  { fresh topology traffic a w with
    ledger := .ofRoutes traffic topology (Ledger.routesFor traffic a topology p)
    isRouted := true }

variable {topology traffic a w p}

theorem ledger_fresh :
    (fresh topology traffic a w).ledger =
      .ofRoutes traffic topology (Array.replicate traffic.flows.size []) :=
  (Ledger.ofRoutes_replicate _).symm

/-- Clearing the ledger of a fresh tracker changes nothing. -/
theorem cleared_fresh :
    (fresh topology traffic a w).ledger.cleared traffic.flows.size =
      (fresh topology traffic a w).ledger := by
  simp [fresh, start, Ledger.cleared, Network.resetUsage, Network.ofTopology]

/-- The first routing succeeds as far as all routes can be charged. -/
theorem route_of_charged {t : Tracker α} (hnew : t.isRouted = false) {ledger : Ledger α}
    (h : t.ledger.chargeAll t.traffic t.algorithm p t.traffic.flowIds = .ok ledger) :
    t.route p = .ofAttempt t ({ t with ledger, isRouted := true } : Tracker α).refresh := by
  rw [route, hnew, if_neg Bool.false_ne_true, h]

/-- If a route cannot be charged then the ledger is cleared. -/
theorem route_of_not_charged {t : Tracker α} (hnew : t.isRouted = false) {e : Failure α}
    (h : t.ledger.chargeAll t.traffic t.algorithm p t.traffic.flowIds = .error e) :
    t.route p = ⟨{ t with ledger := t.ledger.cleared t.traffic.flows.size }, .error e⟩ := by
  rw [route, hnew, if_neg Bool.false_ne_true, h]

variable (topology traffic a w p)

/-- **The first routing.** It fails and changes nothing, or every flow has a route over existing
links and the tracker has these routes. -/
theorem route_fresh_cases :
    (∃ e, (fresh topology traffic a w).route p = ⟨fresh topology traffic a w, .error e⟩) ∨
      Ledger.Routable traffic a topology p ∧
        Admissible traffic topology (Ledger.routesFor traffic a topology p) ∧
          ∃ terms t, (routedFor topology traffic a w p).refresh = .ok (terms, t) ∧
            (fresh topology traffic a w).route p = ⟨t, .ok terms⟩ := by
  cases hcharge : Ledger.chargeAll traffic a p traffic.flowIds
      (fresh topology traffic a w).ledger with
  | error e =>
    refine .inl ⟨e, (route_of_not_charged rfl hcharge).trans ?_⟩
    show (⟨{ fresh topology traffic a w with
      ledger := (fresh topology traffic a w).ledger.cleared traffic.flows.size }, _⟩ :
        Outcome (Tracker α) α (CostTerms α)) = _
    rw [cleared_fresh]
  | ok ledger =>
    have hroute := route_of_charged (t := fresh topology traffic a w) rfl hcharge
    rw [ledger_fresh, Ledger.chargeAll_eq_ok_iff] at hcharge
    obtain ⟨hroutable, hadm, rfl⟩ := hcharge
    cases hrefresh : (routedFor topology traffic a w p).refresh with
    | error e => exact .inl ⟨e, hroute.trans (congrArg (Outcome.ofAttempt _) hrefresh)⟩
    | ok r =>
      exact .inr ⟨hroutable, hadm, r.1, r.2, rfl,
        hroute.trans (congrArg (Outcome.ofAttempt _) hrefresh)⟩

end Tracker

/-! ### A small network -/

namespace Line

/-- Three routers in a row, each linked with its neighbours in both directions. -/
def topology : Topology Exact where
  routers := #[⟨0, ⟨0, 0, 0⟩, .number 1⟩, ⟨1, ⟨1, 0, 0⟩, .number 1⟩, ⟨2, ⟨2, 0, 0⟩, .number 1⟩]
  links := #[⟨⟨0⟩, ⟨1⟩, .number 8, .number 1⟩, ⟨⟨1⟩, ⟨0⟩, .number 8, .number 1⟩,
    ⟨⟨1⟩, ⟨2⟩, .number 8, .number 1⟩, ⟨⟨2⟩, ⟨1⟩, .number 8, .number 1⟩]
  departures := #[[⟨0⟩], [⟨1⟩, ⟨2⟩], [⟨3⟩]]

theorem built_topology : topology.Built := by
  have h₁ := Topology.Built.addRouter .empty (Topology.addRouter_of_free 0 (Exact.number 1)
    (by decide +kernel : Topology.routerAt? _ ⟨0, 0, 0⟩ = none))
  have h₂ := h₁.addRouter (Topology.addRouter_of_free 1 (Exact.number 1)
    (by decide +kernel : Topology.routerAt? _ ⟨1, 0, 0⟩ = none))
  have h₃ := h₂.addRouter (Topology.addRouter_of_free 2 (Exact.number 1)
    (by decide +kernel : Topology.routerAt? _ ⟨2, 0, 0⟩ = none))
  have h₄ := h₃.addLinkPair
    (show Topology.addLinkPair _ ⟨0⟩ ⟨1⟩ (.number 8) (.number 1) = .ok ((⟨0⟩, ⟨1⟩), _) from rfl)
  exact h₄.addLinkPair
    (show Topology.addLinkPair _ ⟨1⟩ ⟨2⟩ (.number 8) (.number 1) = .ok ((⟨2⟩, ⟨3⟩), _) from rfl)

theorem closed_topology : topology.Closed := by
  unfold Topology.Closed
  decide

/-- A flow without a limit from one block to another, and a limited one back. -/
def traffic : Traffic Exact :=
  ((Traffic.empty.add ⟨"there", ⟨0⟩, ⟨1⟩, .number 3, .infinite false, .number 1⟩).2.add
    ⟨"back", ⟨1⟩, ⟨0⟩, .number 2, .number 4, .number 1⟩).2

theorem built_traffic : traffic.Built :=
  .add _ (.add _ .empty)

/-- Latency counts once, and its overrun twice. -/
def weights : Weights Exact where
  placement := .number 1
  latency := .number 1
  overrun := .number 2
  mode := .networkOnly

/-- The first block is on the first router, and the second one in a given column. -/
def placed (column : UInt32) : Placement :=
  ⟨#[some ⟨0, 0, 0⟩, some ⟨column, 0, 0⟩]⟩

/-- The move of the second block from one column to another. -/
def shift (old new : UInt32) : Move :=
  [⟨⟨1⟩, ⟨old, 0, 0⟩, ⟨new, 0, 0⟩⟩]

/-- A tracker for the two flows. -/
def tracker : Tracker Exact :=
  .fresh topology traffic .fewestHops weights

theorem result_route : (tracker.route (placed 1)).result = .ok ⟨.number 5, .number 6⟩ := by
  decide +kernel

/-- The way to the next column makes both routes longer, and the second flow comes too late. -/
theorem result_evaluate :
    ((tracker.route (placed 1)).state.evaluate (shift 1 2)
      ((placed 1).apply (shift 1 2))).result = .ok ⟨.number 5, .number 6, 2⟩ := by
  decide +kernel

end Line

end NetOnChip
