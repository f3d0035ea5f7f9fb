import NetOnChip.Cost.Total
import NetOnChip.Proofs.Scalar.Arithmetic

/-!
# Factors after normalization

Normalization takes the inverse of a cost for its factor and caps it from above, but not from below.
Over doubles, a cost that is positive or zero gets a factor between zero and the limit. A cost below
zero gets its inverse, which is below zero as well, and so does the zero that carries a sign
(`normalize_factors`). Costs below zero do occur: a tracked cost is a sum of changes, and what
rounding has left of it may have either sign.

As long as no factor is negative, a move that costs more in both terms is not weighted as one that
costs less. With a negative factor it may be (`normalize_reverses`).
-/

namespace NetOnChip

namespace Double

variable {a limit : Float}

/-! ### An inverse with a limit -/

theorem smaller_le (hlimit : 0.0 < limit) : smaller a limit ≤ limit := by
  have hnan := (isNaN_of_lt hlimit).2
  rw [smaller, hnan, if_neg Bool.false_ne_true]
  split
  · exact le_of_lt ‹_›
  · exact le_self hnan

theorem smaller_pos (ha : 0.0 < a) (hlimit : 0.0 < limit) : 0.0 < smaller a limit := by
  rw [smaller]
  split_ifs <;> assumption

theorem smaller_of_neg (ha : a < 0.0) (hlimit : 0.0 < limit) : smaller a limit = a := by
  rw [smaller, (isNaN_of_lt hlimit).2, if_neg Bool.false_ne_true,
    if_pos (lt_of_neg_of_pos ha hlimit)]

/-- **An inverse with a limit** lies between zero and the limit if it is taken of a positive number
or of zero. -/
theorem smaller_inverse_pos (ha : a.isFinite) (hlimit : 0.0 < limit) (h : 0.0 < a ∨ a = 0.0) :
    0.0 < smaller (1.0 / a) limit := by
  refine smaller_pos ?_ hlimit
  obtain hpos | rfl := h
  · exact inverse_pos ha hpos
  · decide +kernel

/-- The limit has no part in the inverse of a negative number, or of zero with a sign. -/
theorem smaller_inverse_neg (ha : a.isFinite) (hlimit : 0.0 < limit) (h : a < 0.0 ∨ a = -0.0) :
    smaller (1.0 / a) limit = 1.0 / a ∧ smaller (1.0 / a) limit < 0.0 := by
  have hneg : 1.0 / a < 0.0 := by
    obtain hneg | rfl := h
    · exact inverse_neg ha hneg
    · decide +kernel
  rw [smaller_of_neg hneg hlimit]
  exact ⟨rfl, hneg⟩

end Double

namespace Costs

variable {c : Costs Float} {w : Weights Float}

theorem aggregateBandwidthFactorLimit_pos : 0.0 < (aggregateBandwidthFactorLimit : Float) := by
  decide +kernel

theorem latencyFactorLimit_pos : 0.0 < (latencyFactorLimit : Float) := by
  decide +kernel

/-- **A move that costs more** in both terms is not weighted as one that costs less, as long as no
factor is negative. -/
theorem not_weightedDelta_lt (hbandwidth : 0.0 ≤ c.aggregateBandwidthFactor)
    (hlatency : 0.0 ≤ c.latencyFactor) (hw : 0.0 ≤ w.placement) {d d' : Delta Float}
    (h : d.aggregateBandwidth ≤ d'.aggregateBandwidth) (h' : d.latency ≤ d'.latency) :
    ¬ c.weightedDelta w d' < c.weightedDelta w d := by
  have hchange := Double.not_add_lt_add
    (Double.not_mul_lt_mul (Double.not_lt_of_le h) hbandwidth)
    (Double.not_mul_lt_mul (Double.not_lt_of_le h') hlatency)
  unfold weightedDelta
  cases w.mode with
  | networkOnly => exact hchange
  | combined => exact Double.not_mul_lt_mul_left hchange hw

/-- **Factors after normalization.** No factor is above its limit. A factor is positive if its cost
is positive or zero. If the cost is negative, or zero with a sign, the factor is the inverse of the
cost, and it is negative. With both factors positive the order of moves is kept. -/
theorem normalize_factors (hbandwidth : c.aggregateBandwidth.isFinite)
    (hlatency : c.latency.isFinite) (w : Weights Float) :
    let n := c.normalize w
    n.aggregateBandwidthFactor ≤ aggregateBandwidthFactorLimit ∧
      n.latencyFactor ≤ latencyFactorLimit ∧
      (0.0 < n.aggregateBandwidthFactor ↔ 0.0 < c.aggregateBandwidth ∨ c.aggregateBandwidth = 0.0) ∧
      (0.0 < n.latencyFactor ↔ 0.0 < c.latency ∨ c.latency = 0.0) ∧
      (c.aggregateBandwidth < 0.0 ∨ c.aggregateBandwidth = -0.0 →
        n.aggregateBandwidthFactor = 1.0 / c.aggregateBandwidth ∧
          n.aggregateBandwidthFactor < 0.0) ∧
      (c.latency < 0.0 ∨ c.latency = -0.0 →
        n.latencyFactor = 1.0 / c.latency ∧ n.latencyFactor < 0.0) ∧
      (0.0 < n.aggregateBandwidthFactor → 0.0 < n.latencyFactor → 0.0 ≤ w.placement →
        ∀ d d' : Delta Float, d.aggregateBandwidth ≤ d'.aggregateBandwidth →
          d.latency ≤ d'.latency → ¬ n.weightedDelta w d' < n.weightedDelta w d) := by
  have hlimit := aggregateBandwidthFactorLimit_pos
  have hlimit' := latencyFactorLimit_pos
  have hiff {a limit : Float} (ha : a.isFinite) (hlimit : 0.0 < limit) :
      0.0 < Double.smaller (1.0 / a) limit ↔ 0.0 < a ∨ a = 0.0 := by
    refine ⟨fun h ↦ (Double.sign_cases ha).resolve_right fun hneg ↦ ?_,
      Double.smaller_inverse_pos ha hlimit⟩
    exact Double.not_lt_of_le (Double.le_of_lt h) (Double.smaller_inverse_neg ha hlimit hneg).2
  exact ⟨Double.smaller_le hlimit, Double.smaller_le hlimit', hiff hbandwidth hlimit,
    hiff hlatency hlimit', Double.smaller_inverse_neg hbandwidth hlimit,
    Double.smaller_inverse_neg hlatency hlimit', fun h h' hw d d' ↦
      not_weightedDelta_lt (Double.le_of_lt h) (Double.le_of_lt h') hw⟩

/-- A cost of four and a cost of zero get factors in their ranges, and so the order is kept. -/
theorem normalize_factors_pair :
    let c : Costs Float := { Costs.initial with aggregateBandwidth := 4.0 }
    let w : Weights Float := ⟨0.6, 0.02, 0.6, .combined⟩
    let n := c.normalize w
    c.aggregateBandwidth.isFinite ∧ c.latency.isFinite ∧ 0.0 ≤ w.placement ∧
      0.0 < n.aggregateBandwidthFactor ∧
      n.aggregateBandwidthFactor ≤ aggregateBandwidthFactorLimit ∧
      0.0 < n.latencyFactor ∧ n.latencyFactor ≤ latencyFactorLimit ∧
      ∀ d d' : Delta Float, d.aggregateBandwidth ≤ d'.aggregateBandwidth →
        d.latency ≤ d'.latency → ¬ n.weightedDelta w d' < n.weightedDelta w d := by
  intro c w n
  have hbandwidth : c.aggregateBandwidth.isFinite := by decide +kernel
  have hlatency : c.latency.isFinite := by decide +kernel
  have hw : 0.0 ≤ w.placement := by decide +kernel
  obtain ⟨hle, hle', hiff, hiff', -, -, horder⟩ := normalize_factors hbandwidth hlatency w
  have hpos := hiff.2 (.inl (by decide +kernel))
  have hpos' := hiff'.2 (.inr rfl)
  exact ⟨hbandwidth, hlatency, hw, hpos, hle, hpos', hle', horder hpos hpos' hw⟩

/-- **The order of moves can be reversed.** Rounding leaves a little less than zero of a cost that
was taken off term by term, and the inverse of that is a large negative factor. Then a move that
costs more is weighted as if it cost much less. Zero with a sign has an infinite inverse. -/
theorem normalize_reverses :
    let w : Weights Float := ⟨0.6, 0.02, 0.6, .combined⟩
    let c : Costs Float := { Costs.initial with aggregateBandwidth := 0.1 + 0.7 - 0.7 - 0.1 }
    let zero : Costs Float := { Costs.initial with aggregateBandwidth := -0.0 }
    let worse : Delta Float := ⟨0.7, 0.0, 1⟩
    c.aggregateBandwidth.isFinite ∧ c.latency.isFinite ∧ 0.0 ≤ w.placement ∧
      (c.normalize w).aggregateBandwidthFactor < 0.0 ∧
      (0.0 : Float) ≤ worse.aggregateBandwidth ∧ (0.0 : Float) ≤ worse.latency ∧
      (c.normalize w).weightedDelta w worse < (c.normalize w).weightedDelta w .none ∧
      (zero.normalize w).aggregateBandwidthFactor = -1.0 / 0.0 := by
  decide +kernel

end Costs

end NetOnChip
