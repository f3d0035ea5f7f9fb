import NetOnChip.Tracker

/-!
# Placers

A placer owns a placement, its costs, and the tracker that keeps the network terms of these costs up
to date. It tries a move (`tryMove`), and then either accepts it (`accept`) or undoes it (`reject`).
-/

namespace NetOnChip

variable {α : Type} [Scalar α]

/-- A placement with its costs. -/
structure Placer (α : Type) where
  /-- The routes, link usages and costs of the flows. -/
  tracker : Tracker α
  /-- Where the blocks are. -/
  placement : Placement
  /-- What that costs. -/
  costs : Costs α
  deriving Repr

namespace Placer

variable (s : Placer α)

/-- Makes a move and evaluates it. -/
def tryMove (m : Move) : Outcome (Placer α) α (Delta α) :=
  let placement := s.placement.apply m
  let o := s.tracker.evaluate m placement
  ⟨{ s with tracker := o.state, placement }, o.result⟩

/-- The change of the total cost that an evaluated move makes. -/
def costChange (d : Delta α) : α :=
  s.costs.weightedDelta s.tracker.weights d

/-- Accepts the move evaluated last, and brings the total cost up to date. -/
def accept (d : Delta α) : Placer α :=
  let (tracker, costs) := s.tracker.commit d s.costs
  { s with tracker, costs := costs.retotal tracker.weights }

/-- Undoes a move that was tried. -/
def reject (m : Move) : Outcome (Placer α) α Nat :=
  let placement := s.placement.undo m
  let o := s.tracker.revert m placement
  ⟨{ s with tracker := o.state, placement }, o.result⟩

/-- What became of a move that was tried. -/
structure Trial (α : Type) where
  /-- The change of the network cost, or the error of its evaluation. -/
  delta : Attempt α (Delta α)
  /-- The change of the total cost, if the move could be evaluated. -/
  change : Option α

/-- Tries a move and completes it: it is accepted if it could be evaluated and is wanted, and it is
undone otherwise. The only failures are a fault and a move that cannot be undone. -/
def complete (m : Move) (wanted : Bool) : Outcome (Placer α) α (Trial α) :=
  let o := s.tryMove m
  match o.result with
  | .ok d =>
    let trial : Trial α := ⟨.ok d, some (s.costChange d)⟩
    if wanted then
      ⟨o.state.accept d, .ok trial⟩
    else
      (o.state.reject m).andThen fun _ s ↦ ⟨s, .ok trial⟩
  | .error (.error e) =>
    (o.state.reject m).andThen fun _ s ↦ ⟨s, .ok ⟨Attempt.fail e, none⟩⟩
  | .error (.fault e) => ⟨o.state, Attempt.crash e⟩

end Placer

end NetOnChip
