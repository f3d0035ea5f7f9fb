import NetOnChip.Proofs.Route.Check
import NetOnChip.Tracker.Audit

/-!
# What an audit accepts

An audit passes exactly if the flows were routed, every stored route is a walk between the routers
under the blocks of its flow, and no tracked scalar is found to be too far from the one that is
calculated from scratch (`Tracker.audit_eq_ok_iff`). This holds over all scalars. What it says about
the distance of two scalars depends on how they are compared.
-/

namespace NetOnChip

variable {α : Type} [Scalar α]

namespace CostTerm

/-- A cost term as it is tracked. -/
def tracked (c : Costs α) : CostTerm → α
  | .aggregateBandwidth => c.aggregateBandwidth
  | .latency => c.latency

/-- A cost term as it is calculated from scratch. -/
def recomputed (terms : CostTerms α) : CostTerm → α
  | .aggregateBandwidth => terms.aggregateBandwidth
  | .latency => terms.latency

/-- How far a tracked cost term may be from its recomputed value. -/
def allowed (term : CostTerm) (tolerance tracked recomputed : α) : α :=
  Scalar.larger (tolerance * Scalar.larger (Scalar.magnitude tracked) (Scalar.magnitude recomputed))
    term.floor

theorem check_eq_ok_iff {term : CostTerm} {tolerance tracked recomputed : α} :
    term.check tolerance tracked recomputed = .ok () ↔
      ¬ term.allowed tolerance tracked recomputed < Scalar.magnitude (recomputed - tracked) := by
  show (if term.allowed tolerance tracked recomputed < _ then _ else _) = _ ↔ _
  split
  · rename_i h
    exact iff_of_false nofun (not_not_intro h)
  · rename_i h
    exact iff_of_true rfl h

end CostTerm

/-- **An audit passes** exactly if the flows were routed, the routes serve them, and no link usage
and no cost term is found to be too far from what it should be. -/
theorem Tracker.audit_eq_ok_iff {t : Tracker α} {c : Costs α} {tolerance : α} {p : Placement} :
    t.audit c tolerance p = .ok () ↔
      t.isRouted = true ∧
        (t.ledger.table.routes.size = t.traffic.flows.size ∧
          ∀ {f : FlowId} {route : Route}, t.ledger.table.routes[f.index]? = some route →
            Connects t.topology t.traffic p f route) ∧
        (∀ {l : LinkId} {u : α}, l.index < t.topology.links.size → t.network.usageOf l = .ok u →
          ¬ tolerance * Scalar.magnitude (t.traffic.demand t.ledger.table.routes l) <
            Scalar.magnitude (u - t.traffic.demand t.ledger.table.routes l)) ∧
        ∃ terms, t.recompute = .ok terms ∧ ∀ term : CostTerm,
          ¬ term.allowed tolerance (term.tracked c) (term.recomputed terms) <
            Scalar.magnitude (term.recomputed terms - term.tracked c) := by
  -- the usages can be compared only if the routes take existing links
  have hadm : checkRoutes t.topology t.traffic t.ledger.table.routes p = .ok () →
      Admissible t.traffic t.network.topology t.ledger.table.routes :=
    admissible_of_checkRoutes
  rw [← checkRoutes_eq_ok_iff, audit]
  constructor
  · intro h
    obtain ⟨_, hrouted, h⟩ := Attempt.bind_eq_ok_iff.1 h
    obtain ⟨_, hroutes, h⟩ := Attempt.bind_eq_ok_iff.1 h
    obtain ⟨_, husage, h⟩ := Attempt.bind_eq_ok_iff.1 h
    obtain ⟨terms, hterms, h⟩ := Attempt.bind_eq_ok_iff.1 h
    obtain ⟨_, hbandwidth, hlatency⟩ := Attempt.bind_eq_ok_iff.1 h
    refine ⟨(Attempt.guard_eq_ok_iff.1 hrouted).1, hroutes,
      (checkUsage_eq_ok_iff (hadm hroutes)).1 husage, terms, hterms, fun term ↦ ?_⟩
    cases term with
    | aggregateBandwidth => exact CostTerm.check_eq_ok_iff.1 hbandwidth
    | latency => exact CostTerm.check_eq_ok_iff.1 hlatency
  · rintro ⟨hrouted, hroutes, husage, terms, hterms, hclose⟩
    have hbandwidth := CostTerm.check_eq_ok_iff.2 (hclose .aggregateBandwidth)
    have hlatency := CostTerm.check_eq_ok_iff.2 (hclose .latency)
    have husage := (checkUsage_eq_ok_iff (hadm hroutes)).2 husage
    refine Attempt.bind_eq_ok_iff.2 ⟨(), Attempt.guard_eq_ok_iff.2 ⟨hrouted, rfl⟩, ?_⟩
    refine Attempt.bind_eq_ok_iff.2 ⟨(), hroutes, ?_⟩
    refine Attempt.bind_eq_ok_iff.2 ⟨(), husage, ?_⟩
    refine Attempt.bind_eq_ok_iff.2 ⟨terms, hterms, ?_⟩
    exact Attempt.bind_eq_ok_iff.2 ⟨(), hbandwidth, hlatency⟩

end NetOnChip
