import NetOnChip.Tracker

/-!
# Audits

An audit compares what a tracker keeps up to date with a calculation from scratch: every route has
to connect the routers of its flow, the usage of every link has to match the routes that cross it,
and both tracked cost terms have to be close to their recomputed values. A cost term may differ by a
relative tolerance, and always by a small absolute amount, which covers the rounding residue on a
term that should be zero.
-/

namespace NetOnChip

variable {α : Type} [Scalar α]

/-- The difference that an audit always lets pass. -/
def CostTerm.floor : CostTerm → α
  | .aggregateBandwidth => Scalar.tenToMinus 6
  | .latency => Scalar.tenToMinus 24

/-- Checks one cost term against its recomputed value. -/
def CostTerm.check (term : CostTerm) (tolerance tracked recomputed : α) : Attempt α Unit :=
  let scale := Scalar.larger (Scalar.magnitude tracked) (Scalar.magnitude recomputed)
  let allowed := Scalar.larger (tolerance * scale) term.floor
  if allowed < Scalar.magnitude (recomputed - tracked) then
    Attempt.fail (.costDrift term tracked recomputed tolerance)
  else
    .ok ()

/-- Compares the routes, usages and costs that a tracker keeps with a calculation from scratch. -/
def Tracker.audit (t : Tracker α) (c : Costs α) (tolerance : α) (p : Placement) :
    Attempt α Unit := do
  t.ensureRouted
  let routes := t.ledger.table.routes
  checkRoutes t.topology t.traffic routes p
  checkUsage t.network t.traffic routes tolerance
  let terms ← t.recompute
  CostTerm.aggregateBandwidth.check tolerance c.aggregateBandwidth terms.aggregateBandwidth
  CostTerm.latency.check tolerance c.latency terms.latency

end NetOnChip
