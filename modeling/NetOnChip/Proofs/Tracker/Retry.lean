import NetOnChip.Proofs.Tracker.Calls

/-!
# First routings that fail

The first routing stops at the first flow without a route. The flows before it have been stored in
the table and charged to their links by then (`Ledger.chargeAll_eq_fail`), and nothing of this is
taken back: the table and the usages are made anew. That comes to the same, since neither the
topology nor the number of flows has changed (`Ledger.cleared_of_chargeAll`). So a tracker that was
fresh is as it was, however often routing it fails, and it can be routed for any other placement as
if it had never been tried before (`Tracker.route_of_refused`).
-/

namespace NetOnChip

variable {α : Type} [Scalar α]

namespace Ledger

variable {traffic : Traffic α} {a : Algorithm} {p : Placement} {f : FlowId}
  {flows : List FlowId} {l reached : Ledger α}

/-- Routes one flow, stores its route, and charges it. -/
def chargeFirst (traffic : Traffic α) (a : Algorithm) (p : Placement) (f : FlowId) (l : Ledger α) :
    Attempt α (Ledger α) := do
  let route ← routeFlow traffic a l.network.topology p f
  let (_, table) ← l.table.replace f route
  let flow ← traffic.flow f
  let network ← l.network.charge .add flow.bandwidth route
  return ⟨network, table⟩

theorem chargeAll_cons :
    chargeAll traffic a p (f :: flows) l =
      chargeFirst traffic a p f l >>= chargeAll traffic a p flows := by
  rw [chargeAll, chargeFirst]
  simp only [bind_assoc, pure_bind]

/-- One flow fails if it has no route. -/
theorem chargeFirst_eq_fail {e : Error α} (h : chargeFirst traffic a p f l = Attempt.fail e) :
    routeFlow traffic a l.network.topology p f = Attempt.fail e := by
  rcases Attempt.bind_eq_fail_iff.1 h with hroute | ⟨route, _, h⟩
  · exact hroute
  · have hcharge : (l.table.replace f route >>= fun (_, table) ↦ traffic.flow f >>= fun flow ↦
        l.network.charge .add flow.bandwidth route >>= fun network ↦
          pure (⟨network, table⟩ : Ledger α)).NeverFails :=
      (l.table.neverFails_replace f route).bind fun _ ↦ (Attempt.neverFails_entry _ _).bind fun _ ↦
        (Network.neverFails_charge _ _ _ _).bind fun _ ↦ Attempt.neverFails_ok _
    exact absurd h (hcharge e)

/-- Charging one flow leaves the topology alone, and the number of links. -/
theorem chargeFirst_eq_ok (h : chargeFirst traffic a p f l = .ok reached) :
    reached.network.topology = l.network.topology ∧
      reached.network.usage.size = l.network.usage.size := by
  obtain ⟨route, _, h⟩ := Attempt.bind_eq_ok_iff.1 h
  obtain ⟨⟨_, table⟩, _, h⟩ := Attempt.bind_eq_ok_iff.1 h
  obtain ⟨flow, _, h⟩ := Attempt.bind_eq_ok_iff.1 h
  obtain ⟨network, hcharge, h⟩ := Attempt.bind_eq_ok_iff.1 h
  obtain rfl := Except.ok.inj h
  rw [Network.charge_eq_ok _ _ (Network.lt_of_charge_eq_ok hcharge)] at hcharge
  obtain rfl := Except.ok.inj hcharge
  exact ⟨rfl, Network.size_charged _ _ _⟩

theorem chargeAll_eq_ok (h : chargeAll traffic a p flows l = .ok reached) :
    reached.network.topology = l.network.topology ∧
      reached.network.usage.size = l.network.usage.size := by
  induction flows generalizing l with
  | nil =>
    obtain rfl := Except.ok.inj h
    exact ⟨rfl, rfl⟩
  | cons f flows ih =>
    rw [chargeAll_cons] at h
    obtain ⟨l₁, hfirst, h⟩ := Attempt.bind_eq_ok_iff.1 h
    obtain ⟨htopology, hsize⟩ := chargeFirst_eq_ok hfirst
    obtain ⟨htopology', hsize'⟩ := ih h
    exact ⟨htopology'.trans htopology, hsize'.trans hsize⟩

/-- **Routing flows for the first time** fails at the first flow without a route, after those before
it were charged. -/
theorem chargeAll_eq_fail {e : Error α} (h : chargeAll traffic a p flows l = Attempt.fail e) :
    ∃ n f reached, flows[n]? = some f ∧ chargeAll traffic a p (flows.take n) l = .ok reached ∧
      routeFlow traffic a l.network.topology p f = Attempt.fail e := by
  induction flows generalizing l with
  | nil => nomatch h
  | cons f flows ih =>
    rw [chargeAll_cons] at h
    rcases Attempt.bind_eq_fail_iff.1 h with hfirst | ⟨l₁, hfirst, h⟩
    · exact ⟨0, f, l, rfl, rfl, chargeFirst_eq_fail hfirst⟩
    · obtain ⟨n, g, reached, hg, hcharge, hroute⟩ := ih h
      refine ⟨n + 1, g, reached, hg, ?_, (chargeFirst_eq_ok hfirst).1 ▸ hroute⟩
      rw [List.take_succ_cons, chargeAll_cons, hfirst, Attempt.ok_bind, hcharge]

/-- **Clearing a ledger** after some flows were charged is clearing it before. -/
theorem cleared_of_chargeAll (h : chargeAll traffic a p flows l = .ok reached) (n : Nat) :
    reached.cleared n = l.cleared n := by
  obtain ⟨htopology, hsize⟩ := chargeAll_eq_ok h
  have hreset : reached.network.resetUsage = l.network.resetUsage := by
    rw [Network.resetUsage, Network.resetUsage, htopology]
    refine congrArg _ (Array.ext (by simpa using hsize) fun i _ _ ↦ ?_)
    rw [Array.getElem_map, Array.getElem_map]
  rw [cleared, cleared, hreset, htopology]

end Ledger

namespace Tracker

/-- Some attempts to route flows for the first time, each of which failed. -/
inductive Refused : Tracker α → List Placement → Tracker α → Prop where
  /-- There were no attempts. -/
  | nil (t : Tracker α) : Refused t [] t
  /-- One attempt failed, and then the others did. -/
  | cons {t t' : Tracker α} {p : Placement} {placements : List Placement} {e : Error α} :
      (t.route p).result = Attempt.fail e → Refused (t.route p).state placements t' →
        Refused t (p :: placements) t'

variable {t : Tracker α} {topology : Topology α} {traffic : Traffic α} {a : Algorithm}
  {w : Weights α}

/-- **A first routing that fails** does so at a flow without a route. It clears what the flows
before that one were charged. -/
theorem route_eq_fail (hnew : t.isRouted = false) {p : Placement} {e : Error α}
    (h : (t.route p).result = Attempt.fail e) :
    ∃ n reached, n < t.traffic.flows.size ∧
      t.ledger.chargeAll t.traffic t.algorithm p (t.traffic.flowIds.take n) = .ok reached ∧
      routeFlow t.traffic t.algorithm t.topology p ⟨n⟩ = Attempt.fail e ∧
      (t.route p).state = { t with ledger := reached.cleared t.traffic.flows.size } := by
  cases hcharge : t.ledger.chargeAll t.traffic t.algorithm p t.traffic.flowIds with
  | ok ledger =>
    rw [route_of_charged hnew hcharge] at h
    exact absurd (Outcome.eq_fail_of_ofAttempt h) (neverFails_refresh _ e)
  | error why =>
    rw [route_of_not_charged hnew hcharge] at h ⊢
    have he : (.error why : Attempt α (Ledger α)) = Attempt.fail e :=
      congrArg Except.error (Except.error.inj h)
    obtain ⟨n, f, reached, hf, hreached, hroute⟩ := Ledger.chargeAll_eq_fail (hcharge.trans he)
    obtain ⟨rfl, hn⟩ := Id.getElem?_range_eq_some_iff.1 hf
    refine ⟨n, reached, hn, hreached, hroute, ?_⟩
    rw [Ledger.cleared_of_chargeAll hreached]

/-- An attempt that fails leaves a fresh tracker as it was. -/
theorem state_route_fresh {p : Placement} {e : Error α}
    (h : ((fresh topology traffic a w).route p).result = Attempt.fail e) :
    ((fresh topology traffic a w).route p).state = fresh topology traffic a w := by
  obtain ⟨n, reached, -, hreached, -, hstate⟩ := route_eq_fail rfl h
  rw [hstate, Ledger.cleared_of_chargeAll hreached]
  show { fresh topology traffic a w with
    ledger := (fresh topology traffic a w).ledger.cleared traffic.flows.size } = _
  rw [cleared_fresh]

/-- So does any number of them. -/
theorem Refused.eq_fresh {t₀ : Tracker α} {placements : List Placement}
    (h : Refused t₀ placements t) (hfresh : t₀ = fresh topology traffic a w) :
    t = fresh topology traffic a w := by
  induction h with
  | nil => exact hfresh
  | cons hfail _ ih =>
    subst hfresh
    exact ih (state_route_fresh hfail)

variable {placements : List Placement}

/-- **A first routing that fails leaves no trace.** After any number of attempts, wherever each of
them came to a flow without a route, no flow is routed, no link lists a flow, and no link is used;
the next attempt that fails clears what it has charged in the same way; and the next routing, for
whatever placement, ends with the same result and the same tracker as if it were the first one. -/
theorem route_of_refused (h : Refused (fresh topology traffic a w) placements t) :
    t.isRouted = false ∧
    t.ledger.table = .empty traffic.flows.size topology.links.size ∧
    t.network = .ofTopology topology ∧
    (∀ p e, (t.route p).result = Attempt.fail e →
      ∃ n reached, n < traffic.flows.size ∧
        t.ledger.chargeAll traffic a p (traffic.flowIds.take n) = .ok reached ∧
        routeFlow traffic a topology p ⟨n⟩ = Attempt.fail e ∧
        (t.route p).state = { t with ledger := reached.cleared traffic.flows.size }) ∧
    ∀ p, t.route p = (fresh topology traffic a w).route p := by
  obtain rfl := h.eq_fresh rfl
  exact ⟨rfl, rfl, rfl, fun _ _ hfail ↦ route_eq_fail rfl hfail, fun _ ↦ rfl⟩

end Tracker

namespace Diamond

/-- Two flows to the same block. -/
def traffic : Traffic Exact :=
  ((Traffic.empty.add ⟨"first", ⟨0⟩, ⟨1⟩, .number 3, .infinite false, .number 1⟩).2.add
    ⟨"second", ⟨2⟩, ⟨1⟩, .number 2, .infinite false, .number 1⟩).2

/-- The block that both flows go to is on a given tile. -/
def placed (sink : Tile) : Placement :=
  ⟨#[some ⟨0, 0, 0⟩, some sink, some ⟨0, 1, 0⟩]⟩

/-- A tracker for the two flows. -/
def tracker : Tracker Exact :=
  .fresh topology traffic .leastLatency Line.weights

end Diamond

namespace Tracker

/-- Around a diamond: the first attempt fails at the second flow, after the first one was charged,
and the second attempt fails off the grid. The third one succeeds. -/
theorem route_of_refused_diamond :
    ∃ t, Refused Diamond.tracker [Diamond.placed ⟨1, 0, 0⟩, Diamond.placed ⟨7, 0, 0⟩] t ∧
      t.ledger.table = .empty 2 6 ∧ t.network = .ofTopology Diamond.topology ∧
      t.route (Diamond.placed ⟨1, 1, 0⟩) = Diamond.tracker.route (Diamond.placed ⟨1, 1, 0⟩) ∧
      (t.route (Diamond.placed ⟨1, 1, 0⟩)).result = .ok ⟨.number 8, .number 11⟩ := by
  have hrefused : Refused Diamond.tracker
      [Diamond.placed ⟨1, 0, 0⟩, Diamond.placed ⟨7, 0, 0⟩] _ :=
    .cons (e := .routingFailed .leastLatency ⟨2⟩ ⟨1⟩ .unreachable) (by decide +kernel)
      (.cons (e := .noRouterAt ⟨1⟩ ⟨7, 0, 0⟩) (by decide +kernel) (.nil _))
  obtain ⟨-, htable, hnetwork, -, hroute⟩ := route_of_refused hrefused
  refine ⟨_, hrefused, htable, hnetwork, hroute _, ?_⟩
  rw [hroute]
  decide +kernel

end Tracker

end NetOnChip
