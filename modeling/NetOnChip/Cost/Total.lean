import NetOnChip.Cost.Flow

/-!
# The cost of a placement

The total cost of a placement is a weighted sum of its terms, each scaled by a factor that brings it
to a comparable size. The terms of the network are kept up to date by `NetOnChip.Tracker`;
wirelength and timing belong to the rest of the placer.

`normalize` takes the inverse of each term of the network for its factor, but never more than a
fixed limit.
-/

namespace NetOnChip

variable {α : Type} [Scalar α]

/-- The terms of the cost of a placement, and their factors. -/
structure Costs (α : Type) where
  /-- The total cost. -/
  total : α
  /-- The wirelength. -/
  wirelength : α
  /-- The timing cost. -/
  timing : α
  /-- The aggregate bandwidth cost of the network. -/
  aggregateBandwidth : α
  /-- The latency cost of the network. -/
  latency : α
  /-- The factor of the wirelength. -/
  wirelengthFactor : α
  /-- The factor of the timing cost. -/
  timingFactor : α
  /-- The factor of the aggregate bandwidth cost. -/
  aggregateBandwidthFactor : α
  /-- The factor of the latency cost. -/
  latencyFactor : α
  deriving DecidableEq, Repr

/-- The change of the network cost that a move makes. -/
structure Delta (α : Type) where
  /-- The change of the aggregate bandwidth cost. -/
  aggregateBandwidth : α
  /-- The change of the latency cost. -/
  latency : α
  /-- The number of flows that were routed again. -/
  rerouted : Nat
  deriving DecidableEq, Repr

/-- A change that routes no flow again. -/
def Delta.none : Delta α :=
  ⟨0, 0, 0⟩

/-- Whether no flow was routed again. -/
def Delta.isNoop (d : Delta α) : Bool :=
  d.rerouted = 0

namespace Costs

variable (c : Costs α)

/-- No cost, and factors of one. -/
def initial : Costs α where
  total := 0
  wirelength := 0
  timing := 0
  aggregateBandwidth := 0
  latency := 0
  wirelengthFactor := 1
  timingFactor := 1
  aggregateBandwidthFactor := 1
  latencyFactor := 1

/-- The terms of the network, scaled by their factors. -/
def network : α :=
  c.aggregateBandwidth * c.aggregateBandwidthFactor + c.latency * c.latencyFactor

/-- The total cost that the terms and factors amount to. -/
def weighted (w : Weights α) : α :=
  match w.mode with
  | .networkOnly => c.network
  | .combined =>
    c.wirelength * c.wirelengthFactor + c.timing * c.timingFactor + w.placement * c.network

/-- The change of the total cost that a change of the network cost makes. -/
def weightedDelta (w : Weights α) (d : Delta α) : α :=
  let change := d.aggregateBandwidth * c.aggregateBandwidthFactor + d.latency * c.latencyFactor
  match w.mode with
  | .networkOnly => change
  | .combined => w.placement * change

/-- The largest factor of the aggregate bandwidth cost. -/
def aggregateBandwidthFactorLimit : α :=
  1

/-- The largest factor of the latency cost. Latencies are small, so it is large. -/
def latencyFactorLimit : α :=
  ((Nat.pow 10 12 : Nat) : α)

/-- The total cost brought up to date. -/
def retotal (w : Weights α) : Costs α :=
  { c with total := c.weighted w }

/-- Takes the factors of the network terms from their present values, and brings the total cost up
to date. -/
def normalize (w : Weights α) : Costs α :=
  let c :=
    { c with
      aggregateBandwidthFactor :=
        Scalar.smaller (1 / c.aggregateBandwidth) aggregateBandwidthFactorLimit
      latencyFactor := Scalar.smaller (1 / c.latency) latencyFactorLimit }
  c.retotal w

end Costs

end NetOnChip
