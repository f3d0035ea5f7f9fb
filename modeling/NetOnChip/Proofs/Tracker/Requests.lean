import NetOnChip.Proofs.Tracker.Start
import NetOnChip.Tracker.Audit

/-!
# Requests to a tracker

A tracker may be asked for anything at any time, with arguments that do not fit together: moves that
were never made, changes that were never answered, placements that lack blocks. A `Request` is one
such call, and `Serves` is a run of them in which calls may end with errors.

What does not depend on costs and on lists of flows is kept by every request as soon as it is kept
when one flow is routed again (`Lasting.serve`): nothing else touches the ledger, apart from the
first routing.

So the links are charged correctly all along. A tracker is *settled* when its ledger is the ledger
of its routes, and every request keeps it settled (`keeps_serve`), because `reroute` leaves the
ledger of its new routes. After any run that follows the first successful routing, the usage of
every link is the sum over its flows, in their order and from zero on (`usageOf_eq_demandOn`). As
the scalars are arbitrary, this holds of doubles bit for bit.

Storing a route alone (`storeRoute`) is no request: it leaves usages as they are on purpose.
-/

namespace NetOnChip

variable {α : Type} [Scalar α]

/-- An operation that a tracker is asked for, with its arguments. -/
inductive Request (α : Type) where
  /-- Route all flows for the first time. -/
  | route (p : Placement)
  /-- Route one flow again. -/
  | reroute (f : FlowId) (p : Placement)
  /-- Route the flows of a block again. -/
  | rerouteBlock (b : BlockId) (p : Placement)
  /-- Evaluate a move. -/
  | evaluate (m : Move) (p : Placement)
  /-- Accept the move evaluated last. -/
  | commit (d : Delta α) (c : Costs α)
  /-- Take a move back. -/
  | revert (m : Move) (p : Placement)
  /-- Take the aggregate bandwidth costs from the routes. -/
  | refreshAggregateBandwidth
  /-- Take the latency costs from the routes. -/
  | refreshLatency
  /-- Load the costs of a placement. -/
  | loadCosts (c : Costs α)
  /-- Recompute the costs. -/
  | recompute
  /-- Audit the routes, usages and costs. -/
  | audit (c : Costs α) (tolerance : α) (p : Placement)

namespace Tracker

/-- What becomes of a tracker that is asked for an operation. Values are left out. -/
def serve (t : Tracker α) : Request α → Outcome (Tracker α) α Unit
  | .route p => (t.route p).forget
  | .reroute f p => t.reroute f p
  | .rerouteBlock b p => (t.rerouteBlock b p).forget
  | .evaluate m p => (t.evaluate m p).forget
  | .commit d c => ⟨(t.commit d c).1, .ok ()⟩
  | .revert m p => (t.revert m p).forget
  | .refreshAggregateBandwidth => (Outcome.ofAttempt t t.refreshAggregateBandwidth).forget
  | .refreshLatency => (Outcome.ofAttempt t t.refreshLatency).forget
  | .loadCosts c => (Outcome.ofAttempt t (t.loadCosts c)).forget
  | .recompute => ⟨t, t.recompute.map fun _ ↦ ()⟩
  | .audit c tolerance p => ⟨t, t.audit c tolerance p⟩

/-- A run of requests, one after the other. A request may end with an error, after which the run
goes on; it ends with a fault only if it was not well formed, and then there is nothing to say. -/
inductive Serves : Tracker α → List (Request α) → Tracker α → Prop where
  /-- Nothing is asked for. -/
  | nil (t : Tracker α) : Serves t [] t
  /-- One request is served, and then the others are. -/
  | cons {t t' : Tracker α} {r : Request α} {requests : List (Request α)} :
      (t.serve r).result.Proper → Serves (t.serve r).state requests t' →
        Serves t (r :: requests) t'

/-! ### What is kept beside the ledger -/

section Costs

variable {t t' : Tracker α}

theorem exists_current_of_refreshAggregateBandwidth {c : α}
    (h : t.refreshAggregateBandwidth = .ok (c, t')) : ∃ current, t' = { t with current } := by
  obtain ⟨_, _, h⟩ := Attempt.bind_eq_ok_iff.1 h
  cases h
  exact ⟨_, rfl⟩

theorem exists_current_of_refreshLatency {c : α} (h : t.refreshLatency = .ok (c, t')) :
    ∃ current, t' = { t with current } := by
  obtain ⟨_, _, h⟩ := Attempt.bind_eq_ok_iff.1 h
  cases h
  exact ⟨_, rfl⟩

/-- Taking costs from the routes changes nothing but the stored cost terms. -/
theorem exists_current_of_refresh {terms : CostTerms α} (h : t.refresh = .ok (terms, t')) :
    ∃ current, t' = { t with current } := by
  obtain ⟨⟨_, t₁⟩, h₁, h⟩ := Attempt.bind_eq_ok_iff.1 h
  obtain ⟨⟨_, t₂⟩, h₂, h⟩ := Attempt.bind_eq_ok_iff.1 h
  cases h
  obtain ⟨_, rfl⟩ := exists_current_of_refreshAggregateBandwidth h₁
  obtain ⟨current, rfl⟩ := exists_current_of_refreshLatency h₂
  exact ⟨current, rfl⟩

theorem exists_current_of_loadCosts {c c' : Costs α} (h : t.loadCosts c = .ok (c', t')) :
    ∃ current, t' = { t with current } := by
  obtain ⟨_, _, h⟩ := Attempt.bind_eq_ok_iff.1 h
  obtain ⟨⟨_, t₁⟩, h₁, h⟩ := Attempt.bind_eq_ok_iff.1 h
  cases h
  exact exists_current_of_refresh h₁

/-- Proposing the costs of a move changes nothing but the proposed cost terms. -/
theorem exists_proposed_of_propose {flows : List FlowId} {d d' : Delta α}
    (h : propose flows d t = .ok (d', t')) : ∃ proposed, t' = { t with proposed } := by
  induction flows generalizing t d with
  | nil =>
    cases h
    exact ⟨_, rfl⟩
  | cons f flows ih =>
    obtain ⟨new, _, h⟩ := Attempt.bind_eq_ok_iff.1 h
    obtain ⟨old, _, h⟩ := Attempt.bind_eq_ok_iff.1 h
    obtain ⟨proposed, rfl⟩ := ih h
    exact ⟨proposed, rfl⟩

end Costs

/-! ### Relations that requests keep -/

/-- A relation between trackers that does not depend on costs and lists of flows, and that is kept
when one flow is routed again. -/
structure Lasting (R : Tracker α → Tracker α → Prop) : Prop where
  /-- The relation is transitive. -/
  trans : ∀ {t₁ t₂ t₃ : Tracker α}, R t₁ t₂ → R t₂ t₃ → R t₁ t₃
  /-- Costs and lists of flows do not matter. -/
  beside : ∀ (t : Tracker α) (current proposed : Array (CostTerms α))
    (affected marked : List FlowId), R t { t with current, proposed, affected, marked }
  /-- Routing one flow again keeps the relation. -/
  reroute : ∀ (t : Tracker α) (f : FlowId) (p : Placement), (t.reroute f p).Keeps R t

namespace Lasting

variable {R : Tracker α → Tracker α → Prop} (hR : Lasting R) (t : Tracker α)

include hR

theorem refl : R t t :=
  hR.beside t t.current t.proposed t.affected t.marked

theorem rerouteUnmarked (p : Placement) (flows : List FlowId) :
    (rerouteUnmarked p flows t).Keeps R t := by
  induction flows generalizing t with
  | nil => exact fun _ ↦ hR.refl t
  | cons f flows ih =>
    rw [Tracker.rerouteUnmarked]
    split
    · exact ih t
    · set marked : Tracker α := { t with marked := f :: t.marked }
      have hmarked : R t marked := hR.beside t _ _ _ _
      refine fun hp ↦ hR.trans hmarked ?_
      refine Outcome.Keeps.andThen (R := R) hR.trans (hR.reroute marked f p) (fun _ ↦ ?_) hp
      set t₁ := (marked.reroute f p).state
      set affected : Tracker α := { t₁ with affected := t₁.affected ++ [f] }
      have haffected : R t₁ affected := hR.beside t₁ _ _ _ _
      refine fun hp ↦ hR.trans haffected ?_
      exact Outcome.Keeps.andThen (R := R) hR.trans (ih affected) (fun _ _ ↦ hR.refl _) hp

theorem rerouteBlocks (p : Placement) (blocks : List BlockId) :
    (rerouteBlocks p blocks t).Keeps R t := by
  induction blocks generalizing t with
  | nil => exact fun _ ↦ hR.refl t
  | cons b blocks ih =>
    rw [Tracker.rerouteBlocks]
    refine Outcome.Keeps.andThen (R := R) hR.trans (hR.rerouteUnmarked t p _) fun _ ↦ ?_
    exact Outcome.Keeps.andThen (R := R) hR.trans (ih _) fun _ _ ↦ hR.refl _

theorem rerouteMoved (m : Move) (p : Placement) : (t.rerouteMoved m p).Keeps R t :=
  fun hp ↦ hR.trans (hR.beside t _ _ [] []) (hR.rerouteBlocks t.settled p _ hp)

/-- **A lasting relation is kept by every request**, if it is kept when all flows are routed for the
first time. -/
theorem serve (hroute : ∀ p, (t.route p).Keeps R t) (r : Request α) : (t.serve r).Keeps R t := by
  cases r with
  | route p => exact (hroute p).forget
  | reroute f p => exact hR.reroute t f p
  | rerouteBlock b p => exact (hR.rerouteUnmarked t p _).forget
  | evaluate m p =>
    refine Outcome.Keeps.forget ?_
    refine Outcome.Keeps.andThen (R := R) hR.trans (fun _ ↦ hR.refl t) fun _ ↦ ?_
    refine Outcome.Keeps.andThen (R := R) hR.trans (hR.rerouteMoved t m p) fun _ ↦ ?_
    refine Outcome.keeps_ofAttempt (hR.refl _) fun h ↦ ?_
    obtain ⟨_, rfl⟩ := exists_proposed_of_propose h
    exact hR.beside _ _ _ _ _
  | commit d c => exact fun _ ↦ hR.beside t _ _ [] []
  | revert m p =>
    refine Outcome.Keeps.forget ?_
    refine Outcome.Keeps.andThen (R := R) hR.trans (fun _ ↦ hR.refl t) fun _ ↦ ?_
    refine Outcome.Keeps.andThen (R := R) hR.trans (hR.rerouteMoved t m p) fun _ _ ↦ ?_
    exact hR.beside _ _ _ [] []
  | refreshAggregateBandwidth =>
    refine (Outcome.keeps_ofAttempt (hR.refl t) fun h ↦ ?_).forget
    obtain ⟨_, rfl⟩ := exists_current_of_refreshAggregateBandwidth h
    exact hR.beside t _ _ _ _
  | refreshLatency =>
    refine (Outcome.keeps_ofAttempt (hR.refl t) fun h ↦ ?_).forget
    obtain ⟨_, rfl⟩ := exists_current_of_refreshLatency h
    exact hR.beside t _ _ _ _
  | loadCosts c =>
    refine (Outcome.keeps_ofAttempt (hR.refl t) fun h ↦ ?_).forget
    obtain ⟨_, rfl⟩ := exists_current_of_loadCosts h
    exact hR.beside t _ _ _ _
  | recompute => exact fun _ ↦ hR.refl t
  | audit c tolerance p => exact fun _ ↦ hR.refl t

end Lasting

/-! ### Ledgers that list their routes -/

/-- The table lists routes over existing links, and every link has a usage, whatever it is. -/
structure Listed (t : Tracker α) : Prop where
  /-- The routes of the flows take existing links. -/
  admissible : Admissible t.traffic t.topology t.ledger.table.routes
  /-- The table is that of its routes. -/
  table_eq : t.ledger.table = .ofRoutes t.ledger.table.routes t.topology.links.size
  /-- Every link has a usage. -/
  size_usage : t.network.usage.size = t.topology.links.size

/-- **Routing one flow again.** If it does not end with a fault then the flow has its new route, or
keeps its old one if there is no new one. -/
theorem Listed.reroute_cases {t : Tracker α} (h : t.Listed) {f : FlowId} {p : Placement}
    (hp : (t.reroute f p).result.Proper) :
    ∃ old usage, t.ledger.table.routes[f.index]? = some old ∧
      Ledger.Follows t.traffic t.topology t.ledger.table.routes t.network.usage
        (t.ledger.table.routes.setIfInBounds f.index
          (Ledger.newRoute t.traffic t.algorithm t.topology p f old)) usage ∧
      t.reroute f p =
        ⟨{ t with
            ledger := ⟨⟨t.topology, usage⟩, .ofRoutes (t.ledger.table.routes.setIfInBounds f.index
              (Ledger.newRoute t.traffic t.algorithm t.topology p f old)) t.topology.links.size⟩ },
          (routeFlow t.traffic t.algorithm t.topology p f).map fun _ ↦ ()⟩ := by
  have hledger : t.ledger =
      ⟨⟨t.topology, t.network.usage⟩, .ofRoutes t.ledger.table.routes t.topology.links.size⟩ := by
    rw [← h.table_eq]
    rfl
  rcases Ledger.reroute_cases (a := t.algorithm) (p := p) h.admissible h.size_usage f
    with ⟨old, usage, hold, hfollows, heq⟩ | ⟨-, e, he⟩
  · rw [← hledger] at heq
    exact ⟨old, usage, hold, hfollows, by rw [reroute, heq]⟩
  · rw [← hledger] at he
    exact absurd he (hp e)

/-! ### Settled trackers -/

/-- The flows were routed, the links carry what the routes demand of them, and the table lists what
crosses them. -/
structure Settled (t : Tracker α) : Prop where
  /-- The flows were routed. -/
  isRouted : t.isRouted = true
  /-- The routes of the flows take existing links. -/
  admissible : Admissible t.traffic t.topology t.ledger.table.routes
  /-- The ledger is that of its routes. -/
  ledger_eq : t.ledger = .ofRoutes t.traffic t.topology t.ledger.table.routes

theorem Settled.listed {t : Tracker α} (h : t.Settled) : t.Listed where
  admissible := h.admissible
  table_eq := congrArg Ledger.table h.ledger_eq
  size_usage := (congrArg (·.network.usage.size) h.ledger_eq).trans (by simp [Ledger.ofRoutes])

/-- The second tracker is settled, and has the same flows and the same topology, if the first one is
settled. -/
def KeepsSettled (t t' : Tracker α) : Prop :=
  t.Settled → t'.Settled ∧ t'.traffic = t.traffic ∧ t'.topology = t.topology

/-- **Routing one flow again keeps a tracker settled.** -/
theorem keeps_reroute (t : Tracker α) (f : FlowId) (p : Placement) :
    (t.reroute f p).Keeps KeepsSettled t := by
  intro hp h
  obtain ⟨old, usage, -, hfollows, heq⟩ := h.listed.reroute_cases hp
  have husage : t.network.usage =
      Ledger.demands t.traffic t.topology t.ledger.table.routes :=
    congrArg (·.network.usage) h.ledger_eq
  rw [heq]
  refine ⟨⟨h.isRouted, hfollows.admissible, ?_⟩, rfl, rfl⟩
  rw [hfollows.demands_eq husage]
  rfl

theorem lasting_keepsSettled : Lasting (KeepsSettled (α := α)) where
  trans := by
    intro t₁ t₂ t₃ h₁ h₂ h
    obtain ⟨hs₂, htraffic₂, htopology₂⟩ := h₁ h
    obtain ⟨hs₃, htraffic₃, htopology₃⟩ := h₂ hs₂
    exact ⟨hs₃, htraffic₃.trans htraffic₂, htopology₃.trans htopology₂⟩
  beside := fun _ _ _ _ _ h ↦ ⟨⟨h.isRouted, h.admissible, h.ledger_eq⟩, rfl, rfl⟩
  reroute := keeps_reroute

/-- **Every request keeps a tracker settled.** -/
theorem keeps_serve (t : Tracker α) (r : Request α) : (t.serve r).Keeps KeepsSettled t := by
  refine lasting_keepsSettled.serve t (fun p _ h ↦ ?_) r
  have hroute : t.route p = ⟨t, Attempt.fail .alreadyInitialized⟩ := if_pos h.isRouted
  rw [hroute]
  exact lasting_keepsSettled.refl t h

/-- **A run keeps a tracker settled.** -/
theorem keeps_of_serves {t t' : Tracker α} {requests : List (Request α)}
    (h : Serves t requests t') : KeepsSettled t t' := by
  induction h with
  | nil t => exact lasting_keepsSettled.refl t
  | @cons t t' r _ hp _ ih => exact lasting_keepsSettled.trans (keeps_serve t r hp) ih

/-! ### Runs from the first routing on -/

section Start

variable {topology : Topology α} {traffic : Traffic α} {a : Algorithm} {w : Weights α}
  {p : Placement} {t t₀ : Tracker α} {terms : CostTerms α}

/-- A tracker whose flows were just routed is settled. -/
theorem settled_of_route_fresh
    (h : ((fresh topology traffic a w).route p).result = .ok terms) :
    ((fresh topology traffic a w).route p).state.Settled ∧
      ((fresh topology traffic a w).route p).state.traffic = traffic ∧
        ((fresh topology traffic a w).route p).state.topology = topology := by
  obtain ⟨e, he⟩ | ⟨_, hadm, terms', t', hrefresh, ht'⟩ :=
    route_fresh_cases topology traffic a w p
  · rw [he] at h
    cases h
  · rw [ht']
    obtain ⟨_, rfl⟩ := exists_current_of_refresh hrefresh
    exact ⟨⟨rfl, hadm, rfl⟩, rfl, rfl⟩

/-- As long as its flows could not be routed a tracker is as it was at the start. -/
theorem eq_fresh_or_settled_of_serves {attempts : List Placement}
    (h : Serves t (attempts.map .route) t₀) (ht : t = fresh topology traffic a w ∨ t.Settled) :
    t₀ = fresh topology traffic a w ∨ t₀.Settled := by
  induction attempts generalizing t with
  | nil =>
    cases h
    exact ht
  | cons p attempts ih =>
    obtain _ | ⟨hp, h⟩ := h
    refine ih h ?_
    rcases ht with rfl | ht
    · obtain ⟨e, he⟩ | ⟨_, _, terms, t', _, ht'⟩ :=
        route_fresh_cases topology traffic a w p
      · exact .inl (congrArg Outcome.state he)
      · exact .inr (settled_of_route_fresh (congrArg Outcome.result ht')).1
    · exact .inr (keeps_serve t (.route p) hp ht).1

/-- **The links are charged correctly all along.** Routing may fail any number of times before it
first succeeds. After any further requests, in any order and with any arguments, the usage of every
link is the sum over the flows that cross it, which is also what it would be settled to. -/
theorem usageOf_eq_demandOn {attempts : List Placement} {requests : List (Request α)}
    (hattempts : Serves (fresh topology traffic a w) (attempts.map .route) t₀)
    (hroute : (t₀.route p).result = .ok terms) (hrun : Serves (t₀.route p).state requests t) :
    t.topology = topology ∧ ∀ l : LinkId, l.index < topology.links.size →
      t.network.usageOf l =
          .ok (demandOn l (traffic.flows.toList.zip t.ledger.table.routes.toList)) ∧
        t.ledger.table.settledUsage traffic l =
          .ok (demandOn l (traffic.flows.toList.zip t.ledger.table.routes.toList)) := by
  -- routing succeeds once only, so the tracker was still as it was at the start
  obtain rfl : t₀ = fresh topology traffic a w := by
    refine (eq_fresh_or_settled_of_serves hattempts (.inl rfl)).resolve_right fun h ↦ ?_
    rw [route, if_pos h.isRouted] at hroute
    cases hroute
  obtain ⟨hsettled, htraffic, htopology⟩ := settled_of_route_fresh hroute
  obtain ⟨⟨_, hadm, heq⟩, htraffic', htopology'⟩ := keeps_of_serves hrun hsettled
  rw [htraffic', htopology', htraffic, htopology] at heq
  rw [htraffic', htraffic] at hadm
  refine ⟨htopology'.trans htopology, fun l hl ↦ ⟨?_, ?_⟩⟩
  · rw [network, heq]
    exact Ledger.usageOf_ofRoutes hl
  · rw [heq]
    exact settledUsage_ofRoutes hadm.size_eq hl

/-- On a row of three routers: a placement off the grid is refused, the next one is routed, a move
is evaluated and committed with a change that was never answered, and a flow fails to be routed. -/
theorem usageOf_line :
    ∃ t : Tracker Exact, Serves ((Line.tracker.serve (.route (Line.placed 3))).state.route
        (Line.placed 1)).state
      [.evaluate (Line.shift 1 2) (Line.placed 2), .commit .none .initial,
        .reroute ⟨1⟩ (Line.placed 3)] t ∧
      t.network.usageOf ⟨2⟩ =
        .ok (demandOn ⟨2⟩ (Line.traffic.flows.toList.zip t.ledger.table.routes.toList)) := by
  have hattempts : Serves Line.tracker ([Line.placed 3].map .route) _ :=
    .cons (by decide +kernel) (.nil _)
  have hrun : Serves ((Line.tracker.serve (.route (Line.placed 3))).state.route
        (Line.placed 1)).state
      [.evaluate (Line.shift 1 2) (Line.placed 2), .commit .none .initial,
        .reroute ⟨1⟩ (Line.placed 3)] _ :=
    .cons (by decide +kernel) (.cons (by decide +kernel) (.cons (by decide +kernel) (.nil _)))
  have hroute : ((Line.tracker.serve (.route (Line.placed 3))).state.route
      (Line.placed 1)).result = .ok ⟨.number 5, .number 6⟩ := by decide +kernel
  exact ⟨_, hrun, ((usageOf_eq_demandOn hattempts hroute hrun).2 ⟨2⟩ (by decide)).1⟩

end Start

end Tracker

end NetOnChip
