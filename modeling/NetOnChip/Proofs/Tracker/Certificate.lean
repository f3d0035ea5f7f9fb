import NetOnChip.Proofs.Scalar.Double
import NetOnChip.Proofs.Tracker.Audit

/-!
# What a passed audit certifies

Over doubles, not to be found too far from a value is less than to be close to it. A comparison with
a double that stands for no number fails in either direction, so a tracked value that stands for no
number passes whatever it should be. An infinite one passes if it makes the bound infinite: a cost
term does so with any tolerance but zero, because its bound is relative to the larger of the two
values, and the usage of a link does so only if a multiple of a finite demand overflows. These are
all the cases in which a tracked value is not as close as it should be to a finite one
(`audit_certifies`).
-/

namespace NetOnChip

/-! ### Comparisons -/

/-- What is always allowed is a number. -/
theorem CostTerm.isFinite_floor (term : CostTerm) : (term.floor : Float).isFinite = true := by
  cases term <;> decide +kernel

/-- **A cost term that passes** is close to a finite recomputed value, or it stands for no number.
It may be infinite if the tolerance is not zero. -/
theorem CostTerm.close_of_not_lt {term : CostTerm} {tolerance tracked recomputed : Float}
    (hnonneg : 0.0 ≤ tolerance)
    (h : ¬ term.allowed tolerance tracked recomputed < (recomputed - tracked).abs) :
    ((recomputed - tracked).abs ≤ term.allowed tolerance tracked recomputed ∨
        (recomputed - tracked).isNaN) ∧
      (recomputed.isFinite → tracked.isNaN ∨
        (recomputed - tracked).abs ≤ term.allowed tolerance tracked recomputed ∧
          (tracked.isInf → 0.0 < tolerance)) := by
  have hfloor : (term.floor : Float).isNaN = false :=
    Double.isNaN_of_isFinite term.isFinite_floor
  have hallowed : (term.allowed tolerance tracked recomputed).isNaN = false :=
    Double.isNaN_larger _ hfloor
  have hclose : (recomputed - tracked).abs ≤ term.allowed tolerance tracked recomputed ∨
      (recomputed - tracked).isNaN := by
    obtain hle | hnan | hnan := Double.le_or_isNaN_of_not_lt h
    · exact .inl hle
    · exact absurd (hallowed.symm.trans hnan) Bool.false_ne_true
    · exact .inr (Double.isNaN_abs _ ▸ hnan)
  refine ⟨hclose, fun hrecomputed ↦ ?_⟩
  rw [Double.isNaN_sub_of_isFinite_left hrecomputed] at hclose
  refine hclose.symm.imp_right fun hle ↦ ⟨hle, fun hinf ↦ ?_⟩
  -- with no tolerance only the floor is left, and an infinite difference is beyond it
  by_contra hzero
  obtain ⟨s, hs⟩ := Double.value_of_not_pos hnonneg hzero
  have hscale : Double.value (Double.larger tracked.abs recomputed.abs) = .infinity .positive :=
    Double.value_larger_of_infinity (Double.value_abs_of_isInf hinf) _
  have hleft : term.allowed tolerance tracked recomputed = term.floor :=
    Double.larger_of_isNaN (Double.isNaN_mul_infinity hs hscale) hfloor
  rw [hleft] at h
  have hbeyond := Double.value_of_not_lt h hfloor
    (Double.value_abs_of_isInf (Double.isInf_sub_of_isInf_right hrecomputed hinf))
  have hfinite' := term.isFinite_floor
  rw [Double.isFinite_eq, hbeyond] at hfinite'
  cases hfinite'

/-- **The usage of a link that passes** is close to a finite demand, or it stands for no number. It
may be infinite if the allowed difference is. -/
theorem usage_close_of_not_lt {tolerance usage demand : Float} (hfinite : tolerance.isFinite)
    (h : ¬ tolerance * demand.abs < (usage - demand).abs) :
    ((usage - demand).abs ≤ tolerance * demand.abs ∨ (usage - demand).isNaN ∨
        (tolerance * demand.abs).isNaN) ∧
      (demand.isFinite → usage.isNaN ∨
        (usage - demand).abs ≤ tolerance * demand.abs ∧
          (usage.isInf → (tolerance * demand.abs).isInf)) := by
  have hclose : (usage - demand).abs ≤ tolerance * demand.abs ∨ (usage - demand).isNaN ∨
      (tolerance * demand.abs).isNaN := by
    rw [← Double.isNaN_abs (usage - demand), or_comm (b := _ = true)]
    exact Double.le_or_isNaN_of_not_lt h
  refine ⟨hclose, fun hdemand ↦ ?_⟩
  have hallowed : (tolerance * demand.abs).isNaN = false :=
    Double.isNaN_mul_of_isFinite hfinite (Double.isFinite_abs hdemand)
  obtain hle | hnan | hnan := hclose
  · refine .inr ⟨hle, fun hinf ↦ ?_⟩
    have hbeyond := Double.value_of_not_lt h hallowed
      (Double.value_abs_of_isInf (Double.isInf_sub_of_isInf_left hinf hdemand))
    rw [Double.isInf_eq, hbeyond]
    rfl
  · exact .inl (Double.isNaN_sub_of_isFinite_right usage hdemand ▸ hnan)
  · exact absurd (hallowed.symm.trans hnan) Bool.false_ne_true

namespace Tracker

/-- **What a passed audit certifies.** The flows were routed, and every route is a walk between the
routers under the blocks of its flow. The usage of every link is close to its demand and both cost
terms are close to their recomputed values, unless a side of the comparison stands for no number. In
particular a value that should be finite is tracked as such, with two exceptions: it may stand for
no number, and it may be infinite if this makes the allowed difference infinite. -/
theorem audit_certifies {t : Tracker Float} {c : Costs Float} {tolerance : Float} {p : Placement}
    (hfinite : tolerance.isFinite) (hnonneg : 0.0 ≤ tolerance)
    (h : t.audit c tolerance p = .ok ()) :
    t.isRouted = true ∧
      t.ledger.table.routes.size = t.traffic.flows.size ∧
      (∀ {f : FlowId} {route : Route}, t.ledger.table.routes[f.index]? = some route →
        Connects t.topology t.traffic p f route) ∧
      (∀ {l : LinkId} {u : Float}, l.index < t.topology.links.size → t.network.usageOf l = .ok u →
        let demand := t.traffic.demand t.ledger.table.routes l
        ((u - demand).abs ≤ tolerance * demand.abs ∨ (u - demand).isNaN ∨
            (tolerance * demand.abs).isNaN) ∧
          (demand.isFinite → u.isNaN ∨
            (u - demand).abs ≤ tolerance * demand.abs ∧
              (u.isInf → (tolerance * demand.abs).isInf))) ∧
      ∃ terms, t.recompute = .ok terms ∧ ∀ term : CostTerm,
        let tracked := term.tracked c
        let recomputed := term.recomputed terms
        ((recomputed - tracked).abs ≤ term.allowed tolerance tracked recomputed ∨
            (recomputed - tracked).isNaN) ∧
          (recomputed.isFinite → tracked.isNaN ∨
            (recomputed - tracked).abs ≤ term.allowed tolerance tracked recomputed ∧
              (tracked.isInf → 0.0 < tolerance)) := by
  obtain ⟨hrouted, ⟨hsize, hconnects⟩, husage, terms, hterms, hclose⟩ := audit_eq_ok_iff.1 h
  exact ⟨hrouted, hsize, hconnects, fun hl hu ↦ usage_close_of_not_lt hfinite (husage hl hu),
    terms, hterms, fun term ↦ CostTerm.close_of_not_lt hnonneg (hclose term)⟩

end Tracker

/-! ### Two routers -/

namespace Pair

/-- Two routers that are linked in both directions. -/
def topology : Topology Float where
  routers := #[⟨0, ⟨0, 0, 0⟩, 0⟩, ⟨1, ⟨1, 0, 0⟩, 0⟩]
  links := #[⟨⟨0⟩, ⟨1⟩, 8, 1e-9⟩, ⟨⟨1⟩, ⟨0⟩, 8, 1e-9⟩]
  departures := #[[⟨0⟩], [⟨1⟩]]

/-- One flow, without a limit. -/
def traffic : Traffic Float :=
  (Traffic.empty.add ⟨"there", ⟨0⟩, ⟨1⟩, 3, Scalar.infinity, 1⟩).2

/-- The blocks of the flow are on the two routers. -/
def placed : Placement :=
  ⟨#[some ⟨0, 0, 0⟩, some ⟨1, 0, 0⟩]⟩

/-- The tracker after the flow was routed, with a usage of the link that it takes. -/
def tracker (usage : Float) : Tracker Float :=
  let n := Network.ofTopology topology
  let t := ((Tracker.start n traffic .fewestHops .default).route placed).state
  { t with ledger := { t.ledger with network := { n with usage := #[usage, 0] } } }

/-- The latency cost of the flow, and some aggregate bandwidth cost. -/
def costs (aggregateBandwidth : Float) : Costs Float :=
  { Costs.initial with aggregateBandwidth, latency := 0.02 * 1e-9 }

theorem recompute_tracker : (tracker 3).recompute = .ok ⟨3, 0.02 * 1e-9⟩ := by
  decide +kernel

end Pair

namespace Tracker

/-- An audit passes for what the flow is charged and costs. It certifies the route of the flow, and
that its aggregate bandwidth cost is close to three. -/
theorem audit_certifies_pair :
    (Pair.tracker 3).audit (Pair.costs 3) 0.01 Pair.placed = .ok () ∧
      Connects (Pair.tracker 3).topology (Pair.tracker 3).traffic Pair.placed ⟨0⟩ [⟨0⟩] ∧
      (3 - 3 : Float).abs ≤ CostTerm.aggregateBandwidth.allowed 0.01 (3 : Float) 3 := by
  have haudit : (Pair.tracker 3).audit (Pair.costs 3) 0.01 Pair.placed = .ok () := by
    decide +kernel
  obtain ⟨_, _, hconnects, _, terms, hterms, hclose⟩ :=
    audit_certifies (by decide +kernel) (by decide +kernel) haudit
  obtain rfl : (⟨3, 0.02 * 1e-9⟩ : CostTerms Float) = terms :=
    Except.ok.inj (Pair.recompute_tracker.symm.trans hterms)
  have hroute : (Pair.tracker 3).ledger.table.routes[0]? = some [⟨0⟩] := by decide +kernel
  refine ⟨haudit, hconnects (f := ⟨0⟩) hroute, ?_⟩
  obtain hnan | ⟨hle, _⟩ := (hclose .aggregateBandwidth).2 (by decide +kernel)
  · exact absurd hnan (by decide +kernel)
  · exact hle

/-- **An audit may pass for values that are not close.** It passes for a cost or a usage that stands
for no number and for an infinite cost, although three is the demand and the recomputed cost. -/
theorem audit_certifies_undefined :
    (Pair.tracker 3).recompute = .ok ⟨3, 0.02 * 1e-9⟩ ∧
      expectedUsage Pair.topology Pair.traffic (Pair.tracker 3).ledger.table.routes =
        .ok [3, 0] ∧
      (Pair.tracker 3).audit (Pair.costs (0.0 / 0.0)) 0.01 Pair.placed = .ok () ∧
      (Pair.tracker 3).audit (Pair.costs Scalar.infinity) 0.01 Pair.placed = .ok () ∧
      (Pair.tracker (0.0 / 0.0)).audit (Pair.costs 3) 0.01 Pair.placed = .ok () :=
  ⟨Pair.recompute_tracker, by decide +kernel, by decide +kernel, by decide +kernel,
    by decide +kernel⟩

end Tracker

end NetOnChip
