import Mathlib.Tactic.Ring
import NetOnChip.Proofs.Anneal.Choice
import NetOnChip.Proofs.Anneal.Run
import NetOnChip.Proofs.Anneal.Setup

/-!
# The total cost of an annealing run

The total cost is calculated in three places: when a run is set up, when a move is accepted, and
when the factors of the costs are taken anew. The state between two iterations is a *boundary* of
the run (`Boundary`).

* At every boundary the total cost is the one that the terms and factors amount to
  (`Placer.Totalled`), for arbitrary scalars and so of doubles bit for bit. This needs no assumption
  about the settings or about what is drawn.
* An iteration tries one move and decides about it (`Decided`, `step_promises`). A move that is
  undone leaves the costs alone.
* Over exact numbers an accepted move changes the total cost by exactly the change that the decision
  was about (`Costs.weighted_add`), because the factors stay the same in between.
-/

namespace NetOnChip

open Journal

/-! ### Moves that are proposed -/

/-- **A move that is proposed** leaves from where the blocks are, whatever the layout is. -/
theorem Layout.propose_promises {σ α : Type} [Scalar α] (chance : Chance σ α) (l : Layout)
    (fraction : α) (t : Topology α) (p : Placement) :
    Draw.Promises (fun proposal ↦ ∀ m ∈ proposal, p.Admits m) (l.propose chance fraction t p) := by
  have hany : Draw.Promises (fun found ↦ ∀ tile ∈ found, True)
      (t.randomFreeTile chance l.width l.height) :=
    Draw.promises_true.mono fun _ _ _ _ ↦ trivial
  exact (propose_promises_of fraction p hany).mono fun _ h m hm ↦ (h m hm).admits

/-! ### Iterations -/

namespace Annealer

variable {σ α : Type} [Scalar α]

section Definitions

variable (s : Settings α) (l : Layout) (chance : Chance σ α)

/-- A move that is tried in an iteration and decided about, and the placer after that. -/
structure Decided (a : Annealer σ α) (m : Move) (d : Delta α) (wanted : Bool) (x : Placer α) :
    Prop where
  /-- The move is drawn, and then the decision about the change of the total cost. -/
  drawn : ∃ source source',
    (l.propose chance s.annealing.routerMoveFraction a.placer.tracker.topology
      a.placer.placement).run a.source = .ok (some m, source) ∧
    (a.decide chance ((a.placer.tryMove m).state.costChange d)).run source = .ok (wanted, source')
  /-- The move is tried. -/
  tried : (a.placer.tryMove m).result = .ok d
  /-- It is accepted if it is wanted. -/
  accepted : wanted = true → x = (a.placer.tryMove m).state.accept d
  /-- It is undone otherwise. -/
  rejected : wanted = false →
    ((a.placer.tryMove m).state.reject m).result.Yields (fun _ ↦ True) ∧
      x = ((a.placer.tryMove m).state.reject m).state

/-- What an iteration does: it decides about a move, counts it, and then it may take the factors of
the costs anew. -/
structure Iterates (a b : Annealer σ α) (m : Move) (d : Delta α) (wanted : Bool) (x : Placer α) :
    Prop extends Decided s l chance a m d wanted x where
  /-- An accepted move is counted. -/
  accepted_eq : b.accepted = a.accepted + wanted.toNat
  /-- A move that was undone is counted. -/
  rejected_eq : b.rejected = a.rejected + (!wanted).toNat
  /-- The factors stay, or they are taken anew. -/
  placer_eq : b.placer = x ∨
    b.placer = { x with costs := x.costs.normalize s.routing.weights }

/-- The states between two iterations of a run, after some number of them. -/
inductive Boundary (a₀ : Annealer σ α) : Nat → Annealer σ α → Prop where
  /-- The state before the first iteration. -/
  | start : Boundary a₀ 0 a₀
  /-- The state after one more iteration. -/
  | step {count : Nat} {a b : Annealer σ α} {events : Array (Event α)} :
      Boundary a₀ count a → (a.step s l chance count events).1 = .ok (some b) →
        Boundary a₀ (count + 1) b

end Definitions

variable {s : Settings α} {l : Layout} {chance : Chance σ α} {a a₀ : Annealer σ α}

/-- A proposed move is tried and decided about. -/
theorem attempt_promises {source : σ} {m : Move}
    (hproposed : (l.propose chance s.annealing.routerMoveFraction a.placer.tracker.topology
      a.placer.placement).run a.source = .ok (some m, source)) :
    Promises
      (fun b ↦ ∃ d wanted, Decided s l chance a m d wanted b.placer ∧
        b.accepted = a.accepted + wanted.toNat ∧ b.rejected = a.rejected + (!wanted).toNat)
      (({ a with source } : Annealer σ α).attempt chance m) := by
  have hconclude : ∀ d wanted source', (a.placer.tryMove m).result = .ok d →
      (a.decide chance ((a.placer.tryMove m).state.costChange d)).run source =
        .ok (wanted, source') →
      Promises
        (fun b ↦ ∃ d wanted, Decided s l chance a m d wanted b.placer ∧
          b.accepted = a.accepted + wanted.toNat ∧ b.rejected = a.rejected + (!wanted).toNat)
        (ofAttempt (({ a with source := source' } : Annealer σ α).conclude
          (a.placer.tryMove m).state m d wanted)) := by
    intro d wanted source' hd hdrawn
    refine promises_ofAttempt.mono fun b hb ↦ ⟨d, wanted, ?_⟩
    cases wanted with
    | true =>
      cases hb
      exact ⟨⟨⟨source, source', hproposed, hdrawn⟩, hd, fun _ ↦ rfl, nofun⟩, rfl, rfl⟩
    | false =>
      obtain ⟨n, hn, hb⟩ := Attempt.bind_eq_ok_iff.1 hb
      cases hb
      exact ⟨⟨⟨source, source', hproposed, hdrawn⟩, hd, nofun, fun _ ↦ ⟨⟨n, hn, trivial⟩, rfl⟩⟩,
        rfl, rfl⟩
  refine promises_ofAttempt.bind fun d hd ↦ ?_
  have hrest := promises_ofAttempt.bind fun (drawn : Bool × σ) hdrawn ↦
    hconclude d drawn.1 drawn.2 hd hdrawn
  split
  · exact promises_bind fun _ ↦ hrest
  · exact hrest

/-- Cooling leaves the placer as it is, or takes the factors of its costs anew. -/
theorem cool_promises (moves : Nat) :
    Promises
      (fun b ↦ b.accepted = a.accepted ∧ b.rejected = a.rejected ∧
        (b.placer = a.placer ∨
          b.placer = { a.placer with costs := a.placer.costs.normalize s.routing.weights }))
      (a.cool s moves) := by
  rw [cool]
  split
  · refine (Costs.normalizeIn_promises a.placer.costs _).bind fun c hc ↦ ?_
    subst hc
    exact promises_bind fun _ ↦ promises_pure ⟨rfl, rfl, .inr rfl⟩
  · exact promises_pure ⟨rfl, rfl, .inl rfl⟩

/-- **An iteration**, if it comes to an end and there was something to move. -/
theorem step_promises (moves : Nat) :
    Promises (fun next ↦ ∀ b ∈ next, ∃ m d wanted x, Iterates s l chance a b m d wanted x)
      (a.step s l chance moves) := by
  refine promises_ofAttempt.bind fun (proposal, source) hproposed ↦ ?_
  cases proposal with
  | none => exact promises_bind fun _ ↦ promises_pure fun _ hb ↦ nomatch hb
  | some m =>
    refine (attempt_promises hproposed).bind fun b ⟨d, wanted, hdecided, hacc, hrej⟩ ↦ ?_
    refine (cool_promises (s := s) (moves + 1)).bind fun c ⟨hacc', hrej', hplacer⟩ ↦ ?_
    refine promises_bind fun _ ↦ promises_pure fun c' hc' ↦ ?_
    cases hc'
    exact ⟨m, d, wanted, b.placer, hdecided, hacc'.trans hacc, hrej'.trans hrej, hplacer⟩

/-- **Iterations end at a boundary.** -/
theorem iterate_promises (count : Nat) {before : Nat} (ha : Boundary s l chance a₀ before a) :
    Promises (fun b ↦ ∃ after ≤ before + count, Boundary s l chance a₀ after b)
      (iterate s l chance count before a) := by
  induction count generalizing before a with
  | zero => exact promises_pure ⟨before, le_rfl, ha⟩
  | succ count ih =>
    rw [iterate]
    refine promises_self.bind fun next hstep ↦ ?_
    obtain ⟨events, hnext⟩ := hstep
    cases next with
    | none => exact promises_pure ⟨before, Nat.le_add_right _ _, ha⟩
    | some b =>
      refine (ih (.step ha hnext)).mono fun c hrest ↦ ?_
      obtain ⟨after, hafter, hc⟩ := hrest
      exact ⟨after, by omega, hc⟩

end Annealer

/-! ### The total cost at a boundary -/

section Totalled

variable {σ α : Type} [Scalar α] {s : Settings α} {l : Layout} {chance : Chance σ α}
  {a a₀ : Annealer σ α} {x y : Placer α} {m : Move} {d : Delta α} {wanted : Bool}

/-- The costs after a change of the network cost, with the total cost from before. -/
def Costs.plus (c : Costs α) (d : Delta α) : Costs α :=
  { c with
    aggregateBandwidth := c.aggregateBandwidth + d.aggregateBandwidth
    latency := c.latency + d.latency }

/-- A placer whose tracker is in step with the placement, and whose total cost is what the terms and
factors amount to. -/
structure Placer.Totalled (w : Weights α) (x : Placer α) : Prop where
  /-- Costs are weighted as the settings say. -/
  weights_eq : x.tracker.weights = w
  /-- The tracker is in step with the placement. -/
  synced : x.tracker.Synced x.placement
  /-- The total cost is up to date. -/
  total_eq : x.costs.total = x.costs.weighted w

namespace Annealer.Decided

/-- A decision is about a move that the placement admits. -/
theorem admits (h : Decided s l chance a m d wanted x) : a.placer.placement.Admits m := by
  obtain ⟨source, _, hproposed, -⟩ := h.drawn
  exact l.propose_promises chance _ _ _ _ _ _ hproposed m rfl

/-- **A move that is accepted** is a transaction, after which the total cost is brought up to
date. -/
theorem transaction_of_accepted (h : Decided s l chance a m d true x) :
    ∃ y, Placer.Transaction a.placer y ∧ y.costs = a.placer.costs.plus d ∧
      x = { y with costs := y.costs.retotal y.tracker.weights } :=
  ⟨_, .commit h.admits h.tried, rfl, h.accepted rfl⟩

/-- **A move that is undone** is a transaction that leaves the costs alone. -/
theorem transaction_of_rejected (h : Decided s l chance a m d false x) :
    Placer.Transaction a.placer x ∧ x.costs = a.placer.costs := by
  rw [(h.rejected rfl).2]
  exact ⟨.revert h.admits, rfl⟩

/-- **Either decision keeps the total cost up to date.** -/
theorem totalled {w : Weights α} (h : Decided s l chance a m d wanted x)
    (ha : a.placer.Totalled w) : x.Totalled w := by
  cases wanted with
  | true =>
    obtain ⟨y, hy, -, rfl⟩ := h.transaction_of_accepted
    obtain ⟨hsynced, halike⟩ := hy.synced ha.synced
    have hweights : y.tracker.weights = w := halike.weights_eq.trans ha.weights_eq
    exact ⟨hweights, hsynced, congrArg (y.costs.weighted) hweights⟩
  | false =>
    obtain ⟨hx, hcosts⟩ := h.transaction_of_rejected
    obtain ⟨hsynced, halike⟩ := hx.synced ha.synced
    exact ⟨halike.weights_eq.trans ha.weights_eq, hsynced, hcosts ▸ ha.total_eq⟩

end Annealer.Decided

/-- Taking the factors of the costs anew brings the total cost up to date. -/
theorem Placer.Totalled.normalize {w : Weights α} (h : x.Totalled w) :
    ({ x with costs := x.costs.normalize w } : Placer α).Totalled w :=
  ⟨h.weights_eq, h.synced, rfl⟩

/-- **What every decision keeps, and taking the factors anew keeps, holds at every boundary.** -/
theorem Annealer.Boundary.keeps {P : Placer α → Prop} {count : Nat}
    (h : Boundary s l chance a₀ count a) (h₀ : P a₀.placer)
    (hdecided : ∀ {a m d wanted x}, Decided s l chance a m d wanted x → P a.placer → P x)
    (hnormalize : ∀ {x}, P x → P { x with costs := x.costs.normalize s.routing.weights }) :
    P a.placer := by
  induction h with
  | start => exact h₀
  | step _ hstep ih =>
    obtain ⟨m, d, wanted, x, hiterates⟩ := step_promises _ _ _ hstep _ rfl
    have hx := hdecided hiterates.toDecided ih
    rcases hiterates.placer_eq with heq | heq
    · exact heq ▸ hx
    · exact heq ▸ hnormalize hx

/-- **At every boundary the total cost is up to date.** -/
theorem Annealer.Boundary.totalled {count : Nat} (h : Boundary s l chance a₀ count a)
    (h₀ : a₀.placer.Totalled s.routing.weights) : a.placer.Totalled s.routing.weights :=
  h.keeps h₀ Decided.totalled Placer.Totalled.normalize

end Totalled

/-! ### Exact changes -/

section Changes

variable {w : Weights Exact} {c : Costs Exact} {d : Delta Exact}

/-- Everything but the terms of the network is a number. -/
structure Costs.Factored (c : Costs Exact) : Prop where
  /-- The wirelength is a number. -/
  wirelength : c.wirelength.isNumber
  /-- The timing cost is a number. -/
  timing : c.timing.isNumber
  /-- So is the factor of the wirelength. -/
  wirelengthFactor : c.wirelengthFactor.isNumber
  /-- So is the factor of the timing cost. -/
  timingFactor : c.timingFactor.isNumber
  /-- So is the factor of the aggregate bandwidth cost. -/
  aggregateBandwidthFactor : c.aggregateBandwidthFactor.isNumber
  /-- So is the factor of the latency cost. -/
  latencyFactor : c.latencyFactor.isNumber

/-- The inverse of a number is a number unless it is infinite, and then the limit counts. -/
theorem Exact.isNumber_smaller_inverse {a limit : Exact} (ha : a.isNumber)
    (hlimit : limit.isNumber) : (Scalar.smaller (1 / a) limit).isNumber := by
  obtain ⟨q, rfl⟩ := isNumber_iff.1 ha
  obtain ⟨r, rfl⟩ := isNumber_iff.1 hlimit
  have hinverse : (1 / number q : Exact) = if q = 0 then infinite false else number (1 / q) := by
    show div (number 1) (number q) = _
    simp [div, not_lt.2 (zero_le_one (α := ℚ))]
  rw [hinverse]
  show (smaller _ (number r)).isNumber = true
  split_ifs
  · rfl
  · unfold smaller
    split_ifs <;> rfl

/-- What is added to a number to make a number is a number. -/
theorem Exact.isNumber_of_isNumber_add {a b : Exact} (ha : a.isNumber) (h : (a + b).isNumber) :
    b.isNumber := by
  obtain ⟨x, rfl⟩ := isNumber_iff.1 ha
  cases b with
  | number y => rfl
  | infinite s => cases h
  | undefined => cases h

theorem Costs.Factored.normalize (h : c.Factored) (hbandwidth : c.aggregateBandwidth.isNumber)
    (hlatency : c.latency.isNumber) : (c.normalize w).Factored :=
  ⟨h.wirelength, h.timing, h.wirelengthFactor, h.timingFactor,
    Exact.isNumber_smaller_inverse hbandwidth rfl, Exact.isNumber_smaller_inverse hlatency rfl⟩

theorem Costs.Factored.isNumber_weighted (h : c.Factored) (hw : w.placement.isNumber)
    (hbandwidth : c.aggregateBandwidth.isNumber) (hlatency : c.latency.isNumber) :
    (c.weighted w).isNumber := by
  have hnetwork : c.network.isNumber :=
    Exact.isNumber_add (Exact.isNumber_mul hbandwidth h.aggregateBandwidthFactor)
      (Exact.isNumber_mul hlatency h.latencyFactor)
  unfold weighted
  cases w.mode with
  | networkOnly => exact hnetwork
  | combined =>
    exact Exact.isNumber_add
      (Exact.isNumber_add (Exact.isNumber_mul h.wirelength h.wirelengthFactor)
        (Exact.isNumber_mul h.timing h.timingFactor))
      (Exact.isNumber_mul hw hnetwork)

theorem Costs.Factored.isNumber_weightedDelta (h : c.Factored) (hw : w.placement.isNumber)
    (hd : d.aggregateBandwidth.isNumber ∧ d.latency.isNumber) : (c.weightedDelta w d).isNumber := by
  have hchange : (d.aggregateBandwidth * c.aggregateBandwidthFactor +
      d.latency * c.latencyFactor).isNumber :=
    Exact.isNumber_add (Exact.isNumber_mul hd.1 h.aggregateBandwidthFactor)
      (Exact.isNumber_mul hd.2 h.latencyFactor)
  unfold weightedDelta
  cases w.mode with
  | networkOnly => exact hchange
  | combined => exact Exact.isNumber_mul hw hchange

/-- **The total cost changes by the weighted change**, in both modes. -/
theorem Costs.Factored.weighted_add (h : c.Factored) (hw : w.placement.isNumber)
    (hbandwidth : c.aggregateBandwidth.isNumber) (hlatency : c.latency.isNumber)
    (hd : d.aggregateBandwidth.isNumber ∧ d.latency.isNumber) :
    (c.plus d).weighted w = c.weighted w + c.weightedDelta w d := by
  obtain ⟨total, wirelength, timing, bandwidth, latency, f₁, f₂, f₃, f₄⟩ := c
  obtain ⟨hwirelength, htiming, h₁, h₂, h₃, h₄⟩ := h
  obtain ⟨_, rfl⟩ := Exact.isNumber_iff.1 hwirelength
  obtain ⟨_, rfl⟩ := Exact.isNumber_iff.1 htiming
  obtain ⟨_, rfl⟩ := Exact.isNumber_iff.1 hbandwidth
  obtain ⟨_, rfl⟩ := Exact.isNumber_iff.1 hlatency
  obtain ⟨_, rfl⟩ := Exact.isNumber_iff.1 h₁
  obtain ⟨_, rfl⟩ := Exact.isNumber_iff.1 h₂
  obtain ⟨_, rfl⟩ := Exact.isNumber_iff.1 h₃
  obtain ⟨_, rfl⟩ := Exact.isNumber_iff.1 h₄
  obtain ⟨_, hplacement⟩ := Exact.isNumber_iff.1 hw
  obtain ⟨_, hchange⟩ := Exact.isNumber_iff.1 hd.1
  obtain ⟨_, hchange'⟩ := Exact.isNumber_iff.1 hd.2
  simp only [weighted, weightedDelta, network, plus, hplacement, hchange, hchange']
  cases w.mode <;> simp only [Exact.number_add_number, Exact.number_mul_number] <;>
    exact congrArg Exact.number (by ring)

end Changes

section Measured

variable {σ : Type} {s : Settings Exact} {l : Layout} {chance : Chance σ Exact}
  {a a₀ : Annealer σ Exact} {x : Placer Exact} {m : Move} {d : Delta Exact} {wanted : Bool}
  {w : Weights Exact}

/-- A placer whose costs are numbers, and are those of the routes. -/
structure Placer.Measured (w : Weights Exact) (x : Placer Exact) : Prop extends Totalled w x where
  /-- All costs are numbers. -/
  numeric : Numeric x.tracker.topology x.tracker.traffic w
  /-- The terms of the network are those of the routes. -/
  accurate : x.Accurate
  /-- The other terms and the factors are numbers. -/
  factored : x.costs.Factored

namespace Placer.Measured

theorem isNumber (h : x.Measured w) :
    x.costs.aggregateBandwidth.isNumber ∧ x.costs.latency.isNumber := by
  rw [h.accurate.1, h.accurate.2]
  exact Tracker.isNumber_totalsFor (h.weights_eq.symm ▸ h.numeric) h.synced.wellFormed
    h.synced.closed

/-- A transaction that leaves the factors alone. -/
theorem transaction {y : Placer Exact} (h : x.Measured w) (hxy : Transaction x y) :
    Numeric y.tracker.topology y.tracker.traffic w ∧ y.Accurate := by
  have halike := (hxy.synced h.synced).2
  have hnumeric : Numeric x.tracker.topology x.tracker.traffic x.tracker.weights :=
    h.weights_eq.symm ▸ h.numeric
  refine ⟨?_, hxy.accurate h.synced hnumeric h.accurate⟩
  rw [halike.topology_eq, halike.traffic_eq]
  exact h.numeric

theorem normalize (h : x.Measured w) :
    ({ x with costs := x.costs.normalize w } : Placer Exact).Measured w where
  toTotalled := h.toTotalled.normalize
  numeric := h.numeric
  accurate := h.accurate
  factored := h.factored.normalize h.isNumber.1 h.isNumber.2

end Placer.Measured

namespace Annealer

/-- **Either decision keeps the costs exact.** -/
theorem Decided.measured (h : Decided s l chance a m d wanted x) (ha : a.placer.Measured w) :
    x.Measured w := by
  have hx := h.totalled ha.toTotalled
  cases wanted with
  | true =>
    obtain ⟨y, hy, hcosts, rfl⟩ := h.transaction_of_accepted
    obtain ⟨hnumeric, haccurate⟩ := ha.transaction hy
    refine ⟨hx, hnumeric, haccurate, ?_⟩
    rw [hcosts]
    exact ⟨ha.factored.1, ha.factored.2, ha.factored.3, ha.factored.4, ha.factored.5,
      ha.factored.6⟩
  | false =>
    obtain ⟨hy, hcosts⟩ := h.transaction_of_rejected
    obtain ⟨hnumeric, haccurate⟩ := ha.transaction hy
    exact ⟨hx, hnumeric, haccurate, hcosts ▸ ha.factored⟩

/-- **The costs are exact at every boundary.** -/
theorem Boundary.measured {count : Nat} (h : Boundary s l chance a₀ count a)
    (h₀ : a₀.placer.Measured s.routing.weights) : a.placer.Measured s.routing.weights :=
  h.keeps h₀ Decided.measured Placer.Measured.normalize

/-- **An accepted move changes the total cost by the change that was decided about.** -/
theorem Decided.change_eq (h : Decided s l chance a m d true x) (ha : a.placer.Measured w)
    (hw : w.placement.isNumber) :
    let change := (a.placer.tryMove m).state.costChange d
    a.placer.costs.total.isNumber ∧ change.isNumber ∧
      x.costs.total = a.placer.costs.total + change := by
  intro change
  have hx := h.measured ha
  obtain ⟨y, -, hcosts, rfl⟩ := h.transaction_of_accepted
  obtain ⟨hbandwidth, hlatency⟩ := ha.isNumber
  have hd : d.aggregateBandwidth.isNumber ∧ d.latency.isNumber := by
    obtain ⟨hbandwidth', hlatency'⟩ :
        (a.placer.costs.plus d).aggregateBandwidth.isNumber ∧
          (a.placer.costs.plus d).latency.isNumber := hcosts ▸ hx.isNumber
    exact ⟨Exact.isNumber_of_isNumber_add hbandwidth hbandwidth',
      Exact.isNumber_of_isNumber_add hlatency hlatency'⟩
  -- trying the move changes neither the factors nor the weights
  have hchange : change = a.placer.costs.weightedDelta w d := by
    have hweights : (a.placer.tryMove m).state.tracker.weights = w := by
      obtain ⟨-, hstate, -⟩ := ha.synced.of_evaluate_eq_ok h.tried
      exact (congrArg Tracker.weights hstate).trans ha.weights_eq
    exact congrArg (a.placer.costs.weightedDelta · d) hweights
  have htotal : y.costs.weighted y.tracker.weights = a.placer.costs.total + change := by
    rw [hchange, hcosts, show y.tracker.weights = w from hx.weights_eq, ha.total_eq]
    exact ha.factored.weighted_add hw hbandwidth hlatency hd
  refine ⟨?_, ?_, htotal⟩
  · rw [ha.total_eq]
    exact ha.factored.isNumber_weighted hw hbandwidth hlatency
  · rw [hchange]
    exact ha.factored.isNumber_weightedDelta hw hd

end Annealer

end Measured

/-! ### Runs -/

/-- Settings whose quantities are rational numbers, as far as costs are calculated from them. Only
the latency of flows may be without a limit. -/
structure Settings.Rational (s : Settings Exact) : Prop where
  /-- The time to pass a router is a number. -/
  routerLatency : s.mesh.routerLatency.isNumber
  /-- The time to pass a link is a number. -/
  linkLatency : s.mesh.linkLatency.isNumber
  /-- The least bandwidth is a number. -/
  minBandwidth : s.traffic.minBandwidth.isNumber
  /-- The bound of the bandwidths is a number. -/
  maxBandwidth : s.traffic.maxBandwidth.isNumber
  /-- The limit of latencies is a number, or there is none. -/
  maxLatency : s.traffic.maxLatency ≠ .infinite true
  /-- The weight of the network is a number. -/
  placement : s.routing.weights.placement.isNumber
  /-- The weight of latencies is a number. -/
  latency : s.routing.weights.latency.isNumber
  /-- The weight of overruns is a number. -/
  overrun : s.routing.weights.overrun.isNumber

section Runs

variable {σ : Type} {chance : Chance σ Exact} {s : Settings Exact}

/-- **The quantities of a random flow** are numbers, and there may be no limit to its latency. -/
theorem Benchmark.randomFlow_promises (hc : chance.InRange) (hs : s.Rational) (blocks : Nat)
    (name : String) :
    Draw.Promises (fun flow ↦ flow.bandwidth.isNumber ∧ flow.priority.isNumber ∧
        flow.maxLatency ≠ .infinite true)
      (randomFlow chance s.traffic blocks name) := by
  refine Draw.promises_bind fun source ↦ Draw.promises_bind fun sink ↦ ?_
  have hrest : ∀ bandwidth : Exact, bandwidth.isNumber →
      Draw.Promises (fun flow : Flow Exact ↦ flow.bandwidth.isNumber ∧ flow.priority.isNumber ∧
          flow.maxLatency ≠ .infinite true) (do
        let isLimited ← chance.coin (Scalar.clamp 0 1 s.traffic.constrainedFraction)
        let maxLatency := if isLimited then s.traffic.maxLatency else Scalar.infinity
        let priority := (priorities : List Exact)[← chance.belowWide 4]?.getD 1
        return ⟨name, ⟨source⟩, ⟨sink⟩, bandwidth, maxLatency, priority⟩) := by
    intro bandwidth hbandwidth
    refine Draw.promises_bind fun isLimited ↦ Draw.promises_bind fun i ↦
      Draw.promises_pure ⟨hbandwidth, ?_, ?_⟩
    · have hall : ∀ a ∈ (priorities : List Exact), a.isNumber := by decide
      show ((priorities : List Exact)[i]?.getD 1).isNumber
      cases hpriority : (priorities : List Exact)[i]? with
      | none => rfl
      | some a => exact hall a (List.mem_of_getElem? hpriority)
    · cases isLimited with
      | true => exact hs.maxLatency
      | false => exact nofun
  by_cases hlt : s.traffic.minBandwidth < s.traffic.maxBandwidth
  · rw [if_pos hlt]
    have hdistance := Exact.isNumber_sub hs.maxBandwidth hs.minBandwidth
    exact (hc.between hs.minBandwidth hs.maxBandwidth hdistance hlt).promises.bind fun _ h ↦
      hrest _ (Exact.isNumber_of_between hs.minBandwidth hs.maxBandwidth h.1 h.2)
  · rw [if_neg hlt]
    exact hrest _ hs.minBandwidth

/-- **A run starts with exact costs.** -/
theorem Setup.make_measured (hc : chance.InRange) (hs : s.Rational) (source : σ) :
    Promises (fun u ↦ u.placer.Measured s.routing.weights) (Setup.make chance source s) := by
  refine (make_promises source (Benchmark.randomFlow_promises hc hs)).mono ?_
  rintro ⟨⟨t, p, c⟩, l⟩ ⟨hmesh, hflows, hweights, hsynced, hcosts⟩
  have hnumeric : Numeric t.topology t.traffic s.routing.weights :=
    ⟨hmesh.isNumber_router_latency hs.routerLatency, hmesh.isNumber_link_latency hs.linkLatency,
      fun flow h ↦ (hflows flow h).1, fun flow h ↦ (hflows flow h).2.1,
      fun flow h ↦ (hflows flow h).2.2, hs.latency, hs.overrun⟩
  obtain ⟨hbandwidth, hlatency⟩ := Tracker.isNumber_totalsFor (p := p)
    (hweights.symm ▸ hnumeric) hsynced.wellFormed hsynced.closed
  dsimp only at hcosts
  subst hcosts
  refine ⟨⟨hweights, hsynced, rfl⟩, hnumeric, ⟨rfl, rfl⟩, ?_⟩
  exact Costs.Factored.normalize ⟨rfl, rfl, rfl, rfl, rfl, rfl⟩ hbandwidth hlatency

end Runs

namespace Annealer

/-- The state of a run before its first iteration. -/
def initial {σ α : Type} (s : Settings α) (source : σ) (u : Setup α) : Annealer σ α :=
  ⟨u.placer, source, s.annealing.initialTemperature, 0, 0⟩

/-- **The total cost is never stale, and decisions are about the true change.**

Whatever scalars are calculated with, whatever the settings are and whatever is drawn:

* Any number of iterations ends at a boundary, if it comes to an end.
* At every boundary the total cost is what the terms and the factors amount to.
* A move that is undone there leaves the costs alone.
* An iteration decides about one move, and then it may take the factors anew.

Over exact numbers, in both modes:

* A move that is accepted at a boundary changes the total cost by exactly the change that was
  calculated before and that the decision was about. -/
theorem total_exact :
    (∀ {σ α : Type} [Scalar α] (chance : Chance σ α) (s : Settings α) (source : σ),
      Promises
        (fun u ↦
          (∀ count, Promises
            (fun a ↦ ∃ k ≤ count, Boundary s u.layout chance (initial s source u) k a)
            (iterate s u.layout chance count 0 (initial s source u))) ∧
          ∀ k a, Boundary s u.layout chance (initial s source u) k a →
            a.placer.costs.total = a.placer.costs.weighted s.routing.weights ∧
            (∀ m d x, Decided s u.layout chance a m d false x → x.costs = a.placer.costs) ∧
            ∀ events b, (a.step s u.layout chance k events).1 = .ok (some b) →
              ∃ m d wanted x, Iterates s u.layout chance a b m d wanted x)
        (Setup.make chance source s)) ∧
    ∀ {σ : Type} (chance : Chance σ Exact) (s : Settings Exact) (source : σ),
      chance.InRange → s.Rational →
      Promises
        (fun u ↦ ∀ k a, Boundary s u.layout chance (initial s source u) k a →
          ∀ m d x, Decided s u.layout chance a m d true x →
            let change := (a.placer.tryMove m).state.costChange d
            a.placer.costs.total.isNumber ∧ change.isNumber ∧
              x.costs.total = a.placer.costs.total + change)
        (Setup.make chance source s) := by
  constructor
  · intro σ α _ chance s source
    refine (Setup.make_promises (Q := fun _ ↦ True) source fun _ _ ↦
      Draw.promises_true.mono fun _ _ ↦ trivial).mono fun u ⟨_, _, hweights, hsynced, hcosts⟩ ↦ ?_
    have hstart : (initial s source u).placer.Totalled s.routing.weights := by
      refine ⟨hweights, hsynced, ?_⟩
      show u.placer.costs.total = u.placer.costs.weighted _
      rw [hcosts]
      rfl
    refine ⟨fun count ↦ ?_, fun k a ha ↦ ⟨(ha.totalled hstart).total_eq, ?_, ?_⟩⟩
    · exact (iterate_promises count .start).mono fun b ⟨k, hk, hb⟩ ↦ ⟨k, by omega, hb⟩
    · exact fun m d x h ↦ h.transaction_of_rejected.2
    · exact fun events b hb ↦ step_promises k events _ hb b rfl
  · intro σ chance s source hc hs
    refine (Setup.make_measured hc hs source).mono fun u hu k a ha m d x h ↦ ?_
    exact h.change_eq (ha.measured hu) hs.placement

theorem rational_brief : brief.Rational where
  routerLatency := rfl
  linkLatency := rfl
  minBandwidth := rfl
  maxBandwidth := rfl
  maxLatency := by decide
  placement := rfl
  latency := rfl
  overrun := rfl

/-- The first two iterations of these settings are brought to an end, and the second one accepts
its move. -/
theorem total_exact_brief :
    counting.InRange ∧ brief.Rational ∧
      ∃ u a b m d x, (Setup.make counting 0 brief).run.1 = .ok u ∧
        Iterates brief u.layout counting a b m d true x ∧
        a.placer.costs.total = a.placer.costs.weighted brief.routing.weights ∧
        x.costs.total =
          a.placer.costs.total + (a.placer.tryMove m).state.costChange d := by
  refine ⟨inRange_counting, rational_brief, ?_⟩
  have hrun : ∃ u a b, (Setup.make counting 0 brief).run.1 = .ok u ∧
      ((initial brief 0 u).step brief u.layout counting 0 #[]).1 = .ok (some a) ∧
      (a.step brief u.layout counting 1 #[]).1 = .ok (some b) ∧ b.accepted = a.accepted + 1 := by
    have hcheck : ((Setup.make counting 0 brief).run.1.toOption.bind fun u ↦
        ((initial brief 0 u).step brief u.layout counting 0 #[]).1.toOption.join.bind fun a ↦
        (a.step brief u.layout counting 1 #[]).1.toOption.join.map fun b ↦
          b.accepted == a.accepted + 1) = some true := by decide +kernel
    obtain ⟨u, hu, hcheck⟩ := Option.bind_eq_some_iff.1 hcheck
    obtain ⟨a, ha, hcheck⟩ := Option.bind_eq_some_iff.1 hcheck
    obtain ⟨b, hb, hcheck⟩ := Option.map_eq_some_iff.1 hcheck
    have hok : ∀ {β : Type} {x : Attempt Exact β} {c : β}, x.toOption = some c → x = .ok c := by
      rintro β (_ | _) c ⟨⟩
      rfl
    exact ⟨u, a, b, hok hu, hok (Option.join_eq_some_iff.1 ha), hok (Option.join_eq_some_iff.1 hb),
      eq_of_beq hcheck⟩
  obtain ⟨u, a, b, hu, ha, hb, haccepted⟩ := hrun
  have hboundary : Boundary brief u.layout counting (initial brief 0 u) 1 a := .step .start ha
  obtain ⟨-, hstart⟩ := total_exact.1 counting brief 0 #[] u hu
  obtain ⟨htotal, -, hiterates⟩ := hstart 1 a hboundary
  obtain ⟨m, d, wanted, x, h⟩ := hiterates #[] b hb
  obtain rfl : wanted = true := by
    have := h.accepted_eq
    cases wanted <;> simp_all
  obtain ⟨-, -, hchange⟩ := total_exact.2 counting brief 0 inRange_counting rational_brief #[] u hu
    1 a hboundary m d x h.toDecided
  exact ⟨u, a, b, m, d, x, hu, h, htotal, hchange⟩

end Annealer

end NetOnChip
