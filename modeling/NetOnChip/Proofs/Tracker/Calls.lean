import NetOnChip.Proofs.Route.Check
import NetOnChip.Proofs.Tracker.Coherent
import NetOnChip.Proofs.Tracker.Requests

/-!
# Calls before the first routing

A `Call` is a request or the order to store a route, and `Calls` is a run of them. Storing a route
does not charge it, so after such calls the links may carry anything. The table is right all the
same: it lists the present routes, over existing links (`Listed`), and no call changes that
(`keepsListed_answer`).

Flows may be routed again before all of them were routed for the first time, and then they are
charged. The first routing does not take these charges back. It charges every route once, to what
the links carry already (`Listed.route_cases`). So `usageOf_route_of_calls` has two parts:

* the usage of a link is what it carried before, and then the bandwidths of the flows that cross it,
  in their order;
* it is the demand of these flows if no flow was routed again before the first routing, or if a
  first routing has failed since, which clears the ledger.

`usageOf_route_rerouted` is a flow that is charged twice.
-/

namespace NetOnChip

variable {α : Type} [Scalar α]

/-- A call to a tracker. -/
inductive Call (α : Type) where
  /-- A request. -/
  | request (r : Request α)
  /-- Route one flow and store the route, without charging it. -/
  | storeRoute (f : FlowId) (p : Placement)

namespace Tracker

/-- What becomes of a tracker that is called. Values are left out. -/
def answer (t : Tracker α) : Call α → Outcome (Tracker α) α Unit
  | .request r => t.serve r
  | .storeRoute f p => (Outcome.ofAttempt t (t.storeRoute f p)).forget

/-- A run of calls, one after the other. A call may end with an error, after which the run goes on;
it ends with a fault only if it was not well formed, and then there is nothing to say. -/
inductive Calls : Tracker α → List (Call α) → Tracker α → Prop where
  /-- Nothing is called. -/
  | nil (t : Tracker α) : Calls t [] t
  /-- One call is answered, and then the others are. -/
  | cons {t t' : Tracker α} {c : Call α} {calls : List (Call α)} :
      (t.answer c).result.Proper → Calls (t.answer c).state calls t' → Calls t (c :: calls) t'

/-! ### Costs are taken or there is a fault -/

omit [Scalar α] in
theorem neverFails_routeOf (t : Tracker α) (f : FlowId) : (t.routeOf f).NeverFails :=
  Attempt.neverFails_entry _ _

theorem neverFails_routeLatency (topology : Topology α) (route : Route) :
    (topology.routeLatency route).NeverFails := by
  cases route with
  | nil => exact Attempt.neverFails_ok _
  | cons first route =>
    rw [Topology.routeLatency]
    refine (Attempt.neverFails_entry _ _).bind fun _ ↦
      (Attempt.neverFails_entry _ _).bind fun _ ↦ ?_
    refine Attempt.NeverFails.foldlM (fun _ _ _ ↦ ?_) _
    refine (Attempt.neverFails_entry _ _).bind fun _ ↦
      (Attempt.neverFails_entry _ _).bind fun _ ↦ ?_
    exact Attempt.neverFails_ok _

/-- Taking costs from the routes cannot be refused. -/
theorem neverFails_refresh (t : Tracker α) : t.refresh.NeverFails := by
  have haggregate : ∀ t : Tracker α, t.refreshAggregateBandwidth.NeverFails := fun t ↦
    (Attempt.NeverFails.mapM fun f _ ↦ (Attempt.neverFails_entry _ _).bind fun _ ↦
      (t.neverFails_routeOf f).bind fun _ ↦ Attempt.neverFails_ok _).bind
        fun _ ↦ Attempt.neverFails_ok _
  have hlatency : ∀ t : Tracker α, t.refreshLatency.NeverFails := fun t ↦
    (Attempt.NeverFails.mapM fun f _ ↦ (Attempt.neverFails_entry _ _).bind fun _ ↦
      (t.neverFails_routeOf f).bind fun _ ↦ (neverFails_routeLatency _ _).bind
        fun _ ↦ Attempt.neverFails_ok _).bind fun _ ↦ Attempt.neverFails_ok _
  exact (haggregate t).bind fun _ ↦ (hlatency _).bind fun _ ↦ Attempt.neverFails_ok _

/-- Costs that are kept do not matter for those that are taken. -/
theorem refresh_beside {t t' : Tracker α} {terms : CostTerms α} (h : t.refresh = .ok (terms, t'))
    (current proposed : Array (CostTerms α)) (affected marked : List FlowId) :
    ∃ current', ({ t with current, proposed, affected, marked } : Tracker α).refresh =
      .ok (terms, { t with current := current', proposed, affected, marked }) := by
  obtain ⟨⟨_, t₁⟩, h₁, h⟩ := Attempt.bind_eq_ok_iff.1 h
  obtain ⟨⟨_, t₂⟩, h₂, h⟩ := Attempt.bind_eq_ok_iff.1 h
  obtain ⟨costs, hcosts, h₁⟩ := Attempt.bind_eq_ok_iff.1 h₁
  cases h₁
  obtain ⟨latencies, hlatencies, h₂⟩ := Attempt.bind_eq_ok_iff.1 h₂
  cases h₂
  cases h
  set t₀ : Tracker α := { t with current, proposed, affected, marked } with ht₀
  have hcosts₀ : t₀.traffic.flowIds.mapM t₀.aggregateBandwidthCost = .ok costs := hcosts
  have hlatencies₀ : ∀ current,
      ({ t₀ with current } : Tracker α).traffic.flowIds.mapM
        ({ t₀ with current } : Tracker α).latencyCost = .ok latencies := fun _ ↦ hlatencies
  rw [refresh, refreshAggregateBandwidth, hcosts₀, Attempt.ok_bind]
  show ∃ _, (refreshLatency _ >>= _) = _
  rw [refreshLatency, hlatencies₀]
  exact ⟨_, rfl⟩

/-! ### Tables stay right -/

/-- The second tracker lists its routes if the first one does, and it has been routed if the first
one has. -/
def KeepsListed (t t' : Tracker α) : Prop :=
  t.Listed → t'.Listed ∧ Alike t t' ∧ (t.isRouted = true → t'.isRouted = true)

theorem lasting_keepsListed : Lasting (KeepsListed (α := α)) where
  trans := by
    intro t₁ t₂ t₃ h₁ h₂ h
    obtain ⟨hl₂, halike₂, hrouted₂⟩ := h₁ h
    obtain ⟨hl₃, halike₃, hrouted₃⟩ := h₂ hl₂
    exact ⟨hl₃, halike₂.trans halike₃, hrouted₃ ∘ hrouted₂⟩
  beside := fun _ _ _ _ _ h ↦
    ⟨⟨h.admissible, h.table_eq, h.size_usage⟩, ⟨rfl, rfl, rfl, rfl⟩, id⟩
  reroute := by
    intro t f p hp h
    obtain ⟨old, usage, -, hfollows, heq⟩ := h.reroute_cases hp
    rw [heq]
    exact ⟨⟨hfollows.admissible, rfl, hfollows.size_eq.trans h.size_usage⟩, ⟨rfl, rfl, rfl, rfl⟩,
      id⟩

variable {t : Tracker α} {p : Placement}

omit [Scalar α] in
theorem Listed.ledger_eq (h : t.Listed) :
    t.ledger =
      ⟨⟨t.topology, t.network.usage⟩, .ofRoutes t.ledger.table.routes t.topology.links.size⟩ := by
  rw [← h.table_eq]
  rfl

/-- A tracker after its flows were routed for a placement, and before their costs were taken. Every
route was charged to what the links carried. -/
def chargedFor (t : Tracker α) (p : Placement) : Tracker α :=
  { t with
    ledger :=
      ⟨⟨t.topology, Network.chargedFor (Ledger.routedFor t.traffic t.algorithm t.topology p)
        t.network.usage⟩, .ofRoutes (t.routesFor p) t.topology.links.size⟩
    isRouted := true }

/-- **The first routing**, after any calls. It fails and clears the ledger, or every flow has its
route for the placement, which was charged once. -/
theorem Listed.route_cases (h : t.Listed) (hnew : t.isRouted = false)
    (hp : (t.route p).result.Proper) :
    (∃ e, t.route p =
        ⟨{ t with ledger := t.ledger.cleared t.traffic.flows.size }, Attempt.fail e⟩) ∨
      Ledger.Routable t.traffic t.algorithm t.topology p ∧
        Admissible t.traffic t.topology (t.routesFor p) ∧
          ∃ terms t', (t.chargedFor p).refresh = .ok (terms, t') ∧ t.route p = ⟨t', .ok terms⟩ := by
  cases hcharge : Ledger.chargeAll t.traffic t.algorithm p t.traffic.flowIds t.ledger with
  | error e =>
    have hroute := route_of_not_charged hnew hcharge
    rw [hroute] at hp
    cases e with
    | error e => exact .inl ⟨e, hroute⟩
    | fault e => exact absurd rfl (hp e)
  | ok ledger =>
    have hroute := route_of_charged hnew hcharge
    rw [h.ledger_eq, Ledger.chargeAll_eq_ok_iff_of_usage h.admissible h.size_usage] at hcharge
    obtain ⟨hroutable, hadm, rfl⟩ := hcharge
    refine .inr ⟨hroutable, hadm, ?_⟩
    have hcharged : t.route p = Outcome.ofAttempt t (t.chargedFor p).refresh := hroute
    cases hrefresh : (t.chargedFor p).refresh with
    | ok r => exact ⟨r.1, r.2, rfl, hcharged.trans (congrArg (Outcome.ofAttempt t) hrefresh)⟩
    | error e =>
      rw [hcharged, hrefresh] at hp
      cases e with
      | error e => exact absurd hrefresh (neverFails_refresh _ e)
      | fault e => exact absurd rfl (hp e)

theorem keepsListed_route (t : Tracker α) (p : Placement) : (t.route p).Keeps KeepsListed t := by
  intro hp h
  by_cases hrouted : t.isRouted = true
  · have hroute : t.route p = ⟨t, Attempt.fail .alreadyInitialized⟩ := if_pos hrouted
    rw [hroute]
    exact lasting_keepsListed.refl t h
  · obtain ⟨e, he⟩ | ⟨_, hadm, terms, t', hrefresh, ht'⟩ :=
      h.route_cases (Bool.eq_false_iff.2 hrouted) hp
    · rw [he]
      refine ⟨⟨Ledger.admissible_replicate, RouteTable.empty_eq_ofRoutes .., ?_⟩,
        ⟨rfl, rfl, rfl, rfl⟩, fun h ↦ absurd h hrouted⟩
      exact Array.size_map.trans h.size_usage
    · rw [ht']
      obtain ⟨_, rfl⟩ := exists_current_of_refresh hrefresh
      refine ⟨⟨hadm, rfl, ?_⟩, ⟨rfl, rfl, rfl, rfl⟩, fun _ ↦ rfl⟩
      exact (Network.size_chargedFor ..).trans h.size_usage

theorem keepsListed_storeRoute {f : FlowId} {route : Route} {t' : Tracker α}
    (h : t.storeRoute f p = .ok (route, t')) : KeepsListed t t' := by
  intro hlisted
  obtain ⟨found, _, h⟩ := Attempt.bind_eq_ok_iff.1 h
  obtain ⟨⟨old, table⟩, hreplace, h⟩ := Attempt.bind_eq_ok_iff.1 h
  cases h
  rw [hlisted.table_eq] at hreplace
  obtain ⟨hold, hin⟩ := RouteTable.lt_of_replace_eq_ok hreplace
  have hold' : (t.ledger.table.routes)[f.index]? = some old := hold
  rw [RouteTable.replace_ofRoutes hold' (hlisted.admissible.lt_links hold') hin,
    Except.ok.injEq] at hreplace
  cases hreplace
  exact ⟨⟨hlisted.admissible.set f hin, rfl, hlisted.size_usage⟩, ⟨rfl, rfl, rfl, rfl⟩, id⟩

/-- **No call spoils the table.** -/
theorem keepsListed_answer (t : Tracker α) (c : Call α) : (t.answer c).Keeps KeepsListed t := by
  cases c with
  | request r => exact lasting_keepsListed.serve t (keepsListed_route t) r
  | storeRoute f p =>
    exact (Outcome.keeps_ofAttempt (lasting_keepsListed.refl t) keepsListed_storeRoute).forget

theorem keepsListed_of_calls {t t' : Tracker α} {calls : List (Call α)} (h : Calls t calls t') :
    KeepsListed t t' := by
  induction h with
  | nil t => exact lasting_keepsListed.refl t
  | @cons t t' c _ hp _ ih => exact lasting_keepsListed.trans (keepsListed_answer t c hp) ih

/-! ### What the first routing charges -/

/-- Whether the links are unused after a call that finds the flows not routed, given whether they
were before. A first routing that fails clears them. Evaluating a move and taking it back are
refused at that time, so they do not count. -/
def unusedAfter (unused : Bool) : Call α → Bool
  | .request (.route _) => true
  | .request (.reroute ..) | .request (.rerouteBlock ..) => false
  | _ => unused

/-- The links are unused. -/
def Unused (t : Tracker α) : Prop :=
  t.network.usage = Array.replicate t.topology.links.size 0

theorem Unused.of_network_eq {t t' : Tracker α} (h : t.Unused)
    (hnetwork : t'.network = t.network) : t'.Unused := by
  rw [Unused, topology, hnetwork]
  exact h

/-- As long as the flows were not routed, only routing some of them again charges the links. -/
theorem unused_answer (h : t.Listed) (hnew : t.isRouted = false) {c : Call α}
    (hp : (t.answer c).result.Proper) (hnew' : (t.answer c).state.isRouted = false) {unused : Bool}
    (ht : unused = true → t.Unused) (hc : unusedAfter unused c = true) :
    (t.answer c).state.Unused := by
  have hrefused : t.ensureRouted = Attempt.fail .notInitialized := by
    rw [ensureRouted, hnew]
    rfl
  have hattempt : ∀ {β : Type} {x : Attempt α (β × Tracker α)}, unused = true →
      (∀ {b t'}, x = .ok (b, t') → t'.network = t.network) →
        (Outcome.ofAttempt t x).state.Unused := by
    intro β x hunused hx
    refine Outcome.state_ofAttempt Unused (ht hunused) fun h ↦ ?_
    exact (ht hunused).of_network_eq (hx h)
  cases c with
  | storeRoute f p =>
    refine hattempt hc fun hstore ↦ ?_
    obtain ⟨_, _, hstore⟩ := Attempt.bind_eq_ok_iff.1 hstore
    obtain ⟨_, _, hstore⟩ := Attempt.bind_eq_ok_iff.1 hstore
    cases hstore
    rfl
  | request r =>
    cases r with
    | route p =>
      have hp' : (t.route p).result.Proper := Outcome.proper_forget.1 hp
      obtain ⟨e, he⟩ | ⟨_, _, terms, t', hrefresh, ht'⟩ := h.route_cases hnew hp'
      · rw [answer, serve, he]
        refine Eq.trans ?_ (congrArg (Array.replicate · 0) h.size_usage)
        exact Array.ext (by simp [Ledger.cleared, Network.resetUsage, network, Outcome.forget])
          fun i _ _ ↦ by simp [Ledger.cleared, Network.resetUsage, network, Outcome.forget]
      · -- the flows would be routed now
        obtain ⟨_, rfl⟩ := exists_current_of_refresh hrefresh
        rw [answer, serve, ht'] at hnew'
        cases hnew'
    | reroute f p => cases hc
    | rerouteBlock b p => cases hc
    | evaluate m p =>
      rw [answer, serve, evaluate, hrefused]
      exact ht hc
    | commit d c => exact (ht hc).of_network_eq rfl
    | revert m p =>
      rw [answer, serve, revert, hrefused]
      exact ht hc
    | refreshAggregateBandwidth =>
      refine hattempt hc fun hcosts ↦ ?_
      obtain ⟨_, rfl⟩ := exists_current_of_refreshAggregateBandwidth hcosts
      rfl
    | refreshLatency =>
      refine hattempt hc fun hcosts ↦ ?_
      obtain ⟨_, rfl⟩ := exists_current_of_refreshLatency hcosts
      rfl
    | loadCosts c =>
      refine hattempt hc fun hcosts ↦ ?_
      obtain ⟨_, rfl⟩ := exists_current_of_loadCosts hcosts
      rfl
    | recompute => exact ht hc
    | audit c tolerance p => exact ht hc

theorem unused_of_calls {t t' : Tracker α} {calls : List (Call α)} (h : Calls t calls t')
    (hlisted : t.Listed) (hnew : t'.isRouted = false) {unused : Bool}
    (ht : unused = true → t.Unused) (hcalls : calls.foldl unusedAfter unused = true) :
    t'.Unused := by
  induction h generalizing unused with
  | nil t => exact ht hcalls
  | @cons t t' c calls hp hrest ih =>
    obtain ⟨hlisted', _, hrouted⟩ := keepsListed_answer t c hp hlisted
    have hnew' : (t.answer c).state.isRouted = false := by
      rw [Bool.eq_false_iff]
      intro hrouted'
      have := (keepsListed_of_calls hrest hlisted').2.2 hrouted'
      rw [hnew] at this
      cases this
    have hnew₀ : t.isRouted = false := by
      rw [Bool.eq_false_iff]
      intro hrouted'
      rw [hrouted hrouted'] at hnew'
      cases hnew'
    exact ih hlisted' hnew (fun hc ↦ unused_answer hlisted hnew₀ hp hnew' ht hc) hcalls

section Start

variable {topology : Topology α} {traffic : Traffic α} {a : Algorithm} {w : Weights α}
  {terms : CostTerms α} {calls : List (Call α)}

/-- A tracker that was just started lists empty routes, whatever the links carry. -/
theorem listed_start {n : Network α} (h : n.usage.size = n.topology.links.size) :
    (start n traffic a w).Listed :=
  ⟨Ledger.admissible_replicate, RouteTable.empty_eq_ofRoutes .., h⟩

theorem listed_fresh : (fresh topology traffic a w).Listed :=
  listed_start Array.size_replicate

section Alike

variable (h : (fresh topology traffic a w).Alike t)

include h

/-- Routing the flows charges the routes of the start to what the links carry. -/
theorem ledger_chargedFor :
    (t.chargedFor p).ledger =
      ⟨⟨topology, Network.chargedFor (Ledger.routedFor traffic a topology p) t.network.usage⟩,
        .ofRoutes (Ledger.routesFor traffic a topology p) topology.links.size⟩ := by
  rw [chargedFor, routesFor, h.traffic_eq, h.algorithm_eq, h.topology_eq]
  rfl

/-- On unused links the routes are charged as to a fresh tracker. -/
theorem ledger_chargedFor_of_unused (hunused : t.Unused) :
    (t.chargedFor p).ledger =
      .ofRoutes traffic topology (Ledger.routesFor traffic a topology p) := by
  have husage : t.network.usage = Array.replicate topology.links.size 0 := by
    rwa [Unused, h.topology_eq] at hunused
  rw [ledger_chargedFor h, husage, Ledger.routedFor, Ledger.chargedFor_replicate]
  rfl

/-- On unused links the first routing comes to the same as that of a fresh tracker. -/
theorem route_fresh_of_unused (hunused : t.Unused) {t' : Tracker α}
    (hroutable : Ledger.Routable t.traffic t.algorithm t.topology p)
    (hadm : Admissible t.traffic t.topology (t.routesFor p))
    (hrefresh : (t.chargedFor p).refresh = .ok (terms, t')) :
    ∃ t₀, (fresh topology traffic a w).route p = ⟨t₀, .ok terms⟩ ∧
      t₀.ledger = (t.chargedFor p).ledger := by
  rw [h.traffic_eq, h.algorithm_eq, h.topology_eq] at hroutable
  rw [routesFor, h.traffic_eq, h.algorithm_eq, h.topology_eq] at hadm
  have hledger := ledger_chargedFor_of_unused (p := p) h hunused
  have hcharge : (fresh topology traffic a w).ledger.chargeAll traffic a p traffic.flowIds =
      .ok (.ofRoutes traffic topology (Ledger.routesFor traffic a topology p)) := by
    rw [ledger_fresh, Ledger.chargeAll_eq_ok_iff]
    exact ⟨hroutable, hadm, rfl⟩
  -- the two trackers differ in nothing that costs depend on
  obtain ⟨current, hrefresh₀⟩ := refresh_beside hrefresh
    (fresh topology traffic a w).current (fresh topology traffic a w).proposed [] []
  have hsame : ({ t.chargedFor p with
      current := (fresh topology traffic a w).current
      proposed := (fresh topology traffic a w).proposed
      affected := [], marked := [] } : Tracker α) = routedFor topology traffic a w p := by
    show Tracker.mk t.traffic t.algorithm t.weights (t.chargedFor p).ledger _ _ [] [] true = _
    rw [h.traffic_eq, h.algorithm_eq, h.weights_eq, hledger]
    rfl
  rw [hsame] at hrefresh₀
  exact ⟨_, (route_of_charged rfl hcharge).trans (congrArg (Outcome.ofAttempt _) hrefresh₀), rfl⟩

end Alike

/-- **The first routing after any calls.** It stores the routes for the placement, and the usage of
every link is what the link carried before and then the bandwidths of the flows that cross it, in
their order. Unless some flow was routed again since routing last failed, that is the usage which
the routes imply, and the flows are charged as if nothing had been called before. -/
theorem usageOf_route_of_calls (hcalls : Calls (fresh topology traffic a w) calls t)
    (hroute : (t.route p).result = .ok terms) :
    (t.route p).state.ledger.table =
        .ofRoutes (Ledger.routesFor traffic a topology p) topology.links.size ∧
      (∀ l : LinkId, l.index < topology.links.size →
        ∃ before, t.network.usageOf l = .ok before ∧
          (t.route p).state.network.usageOf l =
            .ok (addDemand l (Ledger.routedFor traffic a topology p) before)) ∧
      (calls.foldl unusedAfter true = true →
        expectedUsage topology traffic (t.route p).state.ledger.table.routes =
            .ok (t.route p).state.network.usage.toList ∧
          ((fresh topology traffic a w).route p).result = .ok terms ∧
          (t.route p).state.ledger = ((fresh topology traffic a w).route p).state.ledger) := by
  obtain ⟨hlisted, halike, _⟩ := keepsListed_of_calls hcalls listed_fresh
  have hnew : t.isRouted = false := by
    rw [Bool.eq_false_iff]
    intro hrouted
    rw [route, if_pos hrouted] at hroute
    cases hroute
  have hproper : (t.route p).result.Proper := hroute ▸ Attempt.proper_ok _
  obtain ⟨e, he⟩ | ⟨hroutable, hadm, terms', t', hrefresh, ht'⟩ := hlisted.route_cases hnew hproper
  · rw [he] at hroute
    cases hroute
  rw [ht'] at hroute ⊢
  cases hroute
  have hledger' : t'.ledger = (t.chargedFor p).ledger := by
    obtain ⟨_, rfl⟩ := exists_current_of_refresh hrefresh
    rfl
  have hledger := hledger'.trans (ledger_chargedFor (p := p) halike)
  refine ⟨congrArg Ledger.table hledger, fun l hl ↦ ?_, fun hcalled ↦ ?_⟩
  · have hlt : l.index < t.network.usage.size := by
      rw [hlisted.size_usage, halike.topology_eq]
      exact hl
    refine ⟨_, Network.usageOf_eq_ok hlt, Attempt.entry_eq_ok_iff.2 ?_⟩
    show t'.ledger.network.usage[l.index]? = _
    rw [hledger, Network.getElem?_chargedFor, Array.getElem?_eq_getElem hlt, Option.map_some]
  · have hunused : t.Unused := unused_of_calls hcalls listed_fresh hnew (fun _ ↦ rfl) hcalled
    have hexpected : t'.ledger =
        .ofRoutes traffic topology (Ledger.routesFor traffic a topology p) :=
      hledger'.trans (ledger_chargedFor_of_unused halike hunused)
    obtain ⟨t₀, hfresh, hledger₀⟩ :=
      route_fresh_of_unused halike hunused hroutable hadm hrefresh
    rw [hfresh]
    refine ⟨?_, rfl, hledger'.trans hledger₀.symm⟩
    rw [routesFor, halike.traffic_eq, halike.algorithm_eq, halike.topology_eq] at hadm
    show expectedUsage topology traffic t'.ledger.table.routes = .ok t'.ledger.network.usage.toList
    rw [hexpected]
    exact (expectedUsage_eq hadm).trans (congrArg Except.ok (Ledger.toList_demands ..).symm)

/-- On a row of three routers: a flow is charged before the first routing, a routing off the grid
fails and clears it, a route is stored without being charged, and a move is refused. Then the flows
are charged once. -/
theorem usageOf_route_line :
    ∃ t, Calls Line.tracker
        [.request (.reroute ⟨0⟩ (Line.placed 2)), .request (.route (Line.placed 3)),
          .storeRoute ⟨1⟩ (Line.placed 2), .request (.evaluate [] (Line.placed 1))] t ∧
      (t.route (Line.placed 1)).result = .ok ⟨.number 5, .number 6⟩ ∧
      expectedUsage Line.topology Line.traffic
          (t.route (Line.placed 1)).state.ledger.table.routes =
        .ok (t.route (Line.placed 1)).state.network.usage.toList := by
  have hcalls : Calls Line.tracker
      [.request (.reroute ⟨0⟩ (Line.placed 2)), .request (.route (Line.placed 3)),
        .storeRoute ⟨1⟩ (Line.placed 2), .request (.evaluate [] (Line.placed 1))] _ :=
    .cons (by decide +kernel) (.cons (by decide +kernel) (.cons (by decide +kernel)
      (.cons (by decide +kernel) (.nil _))))
  refine ⟨_, hcalls, by decide +kernel, ?_⟩
  have hroute := usageOf_route_of_calls hcalls
    (show (Tracker.route _ (Line.placed 1)).result =
      .ok (⟨.number 5, .number 6⟩ : CostTerms Exact) by decide +kernel)
  exact (hroute.2.2 (by decide +kernel)).1

/-- **A flow may be charged twice.** One that is routed again before the first routing is charged,
and the first routing charges it another time: of the two flows on a row of routers, the first one
then counts twice on the only link that it crosses. -/
theorem usageOf_route_rerouted :
    ∃ t, Calls Line.tracker [.request (.reroute ⟨0⟩ (Line.placed 1))] t ∧
      (t.route (Line.placed 1)).result = .ok ⟨.number 5, .number 6⟩ ∧
      (t.route (Line.placed 1)).state.network.usageOf ⟨0⟩ = .ok (.number 6) ∧
      expectedUsage Line.topology Line.traffic
          (t.route (Line.placed 1)).state.ledger.table.routes =
        .ok [.number 3, .number 2, .number 0, .number 0] ∧
      (Line.tracker.route (Line.placed 1)).state.network.usageOf ⟨0⟩ = .ok (.number 3) :=
  ⟨_, .cons (by decide +kernel) (.nil _), by decide +kernel, by decide +kernel, by decide +kernel,
    by decide +kernel⟩

end Start

end Tracker

end NetOnChip
