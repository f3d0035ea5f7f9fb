import NetOnChip.Proofs.Route.Restore

/-!
# Routing flows again in any order

Routing a flow again exchanges its route in the table and settles the links of both routes
(`Ledger.reroute_of_proper`). Whether it can be done depends on the table only through the old route
and through the flows on these links, which have to exist (`Ledger.Reroutable`). A flow that was
routed again exists, so it is in nobody's way (`Ledger.Reroutable.after`).

A link is settled in the state at the end, whatever was done to it in between:

* what a flow that was routed again later left on a link is overwritten if the later routes take the
  link, and
* otherwise it is still the sum over the flows that cross the link, because the later flow did not
  cross it before and does not cross it now (`RouteTable.settledUsage_setIfInBounds`).

So after two flows the links of all four routes are settled for the final table, and the other links
carry what they carried (`Network.SettledFrom.trans`). The same is true for the other order, and the
final table is the same too, which leaves only one final state.

Nothing is assumed of the topology, of the number of flows or of what the links carry, and no law of
the arithmetic is used.
-/

namespace NetOnChip

variable {α : Type} [Scalar α]

/-! ### Sums over the flows on a link -/

/-- The flows whose route takes a link exist. -/
def Traffic.Covers (traffic : Traffic α) (routes : Array Route) (k : LinkId) : Prop :=
  ∀ {f : FlowId} {route : Route}, routes[f.index]? = some route → k ∈ route →
    f.index < traffic.flows.size

omit [Scalar α] in
/-- The route of a flow that exists does not matter. -/
theorem Traffic.covers_setIfInBounds {traffic : Traffic α} {routes : Array Route} {f : FlowId}
    (hf : f.index < traffic.flows.size) (route : Route) {k : LinkId} :
    traffic.Covers (routes.setIfInBounds f.index route) k ↔ traffic.Covers routes k := by
  refine forall_congr' fun g ↦ ?_
  rcases eq_or_ne g f with rfl | hgf
  · exact iff_of_true (fun _ _ ↦ hf) fun _ _ ↦ hf
  · have hne : f.index ≠ g.index := fun h ↦ hgf (Id.ext h.symm)
    rw [Array.getElem?_setIfInBounds_ne hne]

namespace RouteTable

variable {traffic : Traffic α} {routes : Array Route} {links : Nat} {f : FlowId} {old new : Route}
  {k : LinkId}

/-- A sum can be formed if and only if the flows in it exist. -/
theorem exists_foldlM_iff {c : Crossings} {sum : α} :
    (∃ u, c.foldlM (m := Attempt α)
      (fun sum (f, n) ↦ do return addTimes (← traffic.flow f).bandwidth n sum) sum = .ok u) ↔
      ∀ e ∈ c, e.1.index < traffic.flows.size := by
  induction c generalizing sum with
  | nil => exact iff_of_true ⟨sum, rfl⟩ (List.forall_mem_nil _)
  | cons e c ih =>
    obtain ⟨g, n⟩ := e
    rw [List.forall_mem_cons, List.foldlM_cons]
    rcases Nat.lt_or_ge g.index traffic.flows.size with hg | hg
    · obtain ⟨flow, hflow, -⟩ := Attempt.yields_entry (α := α) hg
      have hflow : traffic.flow g = .ok flow := hflow
      simp only [hflow]
      exact ih.trans (and_iff_right hg).symm
    · have hflow : traffic.flow g = Attempt.crash (.missing .flow g.index) := by
        rw [Traffic.flow, Attempt.entry, Array.getElem?_eq_none hg]
      simp only [hflow]
      refine iff_of_false ?_ fun h ↦ absurd h.1 (Nat.not_lt.2 hg)
      rintro ⟨_, ⟨⟩⟩

/-- **The sum over the flows that cross a link** can be formed if and only if the link exists and so
do these flows. -/
theorem exists_settledUsage_iff :
    (∃ u, (ofRoutes routes links).settledUsage traffic k = .ok u) ↔
      k.index < links ∧ traffic.Covers routes k := by
  rcases Nat.lt_or_ge k.index links with hk | hk
  swap
  · rw [settledUsage, flowsOn, Attempt.entry, Array.getElem?_eq_none (by simpa [ofRoutes] using hk)]
    refine iff_of_false ?_ fun h ↦ absurd h.1 (Nat.not_lt.2 hk)
    rintro ⟨_, ⟨⟩⟩
  rw [settledUsage, flowsOn_ofRoutes hk, Attempt.ok_bind, exists_foldlM_iff, and_iff_right hk]
  constructor
  · intro h g route hroute hmem
    have htimes : times routes k g = route.count k := by rw [times, hroute, Option.getD_some]
    exact h (g, route.count k) (Crossings.mem_ofTimes.2
      ⟨(Array.getElem?_eq_some_iff.1 hroute).1, List.count_pos_iff.2 hmem, htimes⟩)
  · rintro h ⟨g, n⟩ he
    obtain ⟨hg, hn, rfl⟩ := Crossings.mem_ofTimes.1 he
    have hroute := Array.getElem?_eq_getElem hg
    rw [times, hroute, Option.getD_some] at hn
    exact h hroute (List.count_pos_iff.1 hn)

/-- **Exchanging a route** leaves the sums alone on the links that neither of the two takes. -/
theorem settledUsage_setIfInBounds (hold : routes[f.index]? = some old) (hk : k ∉ old ++ new) :
    (ofRoutes (routes.setIfInBounds f.index new) links).settledUsage traffic k =
      (ofRoutes routes links).settledUsage traffic k := by
  have hf : f.index < routes.size := (Array.getElem?_eq_some_iff.1 hold).1
  rw [List.mem_append, not_or] at hk
  have htimes : times (routes.setIfInBounds f.index new) k = times routes k := by
    rw [times_setIfInBounds hf, List.count_eq_zero.2 hk.2, Function.update_eq_self_iff, times, hold,
      Option.getD_some, List.count_eq_zero.2 hk.1]
  have hflows : ((ofRoutes (routes.setIfInBounds f.index new) links).flowsOn k :
      Attempt α Crossings) = (ofRoutes routes links).flowsOn k := by
    rcases Nat.lt_or_ge k.index links with hlt | hge
    · rw [flowsOn_ofRoutes hlt, flowsOn_ofRoutes hlt, htimes, Array.size_setIfInBounds]
    · rw [flowsOn, flowsOn, Attempt.entry, Attempt.entry,
        Array.getElem?_eq_none (by simpa [ofRoutes] using hge),
        Array.getElem?_eq_none (by simpa [ofRoutes] using hge)]
  rw [settledUsage, settledUsage, hflows]

end RouteTable

/-! ### Networks that are settled on some links -/

/-- The first network, settled on some links for a table. -/
structure Network.SettledFrom (traffic : Traffic α) (table : RouteTable) (links : Route)
    (n n' : Network α) : Prop where
  /-- The topology is the same. -/
  topology_eq : n'.topology = n.topology
  /-- The other links carry what they carried. -/
  frame : ∀ k ∉ links, n'.usageOf k = n.usageOf k
  /-- The links carry the sums over the flows that cross them. -/
  settled : ∀ k ∈ links, ∃ u, table.settledUsage traffic k = .ok u ∧ n'.usageOf k = .ok u

namespace Network.SettledFrom

variable {traffic : Traffic α} {table table' : RouteTable} {links links' : Route}
  {n n₁ n₂ : Network α}

/-- A link that is settled carries the sum. -/
theorem usageOf_eq (h : SettledFrom traffic table links n n₁) {k : LinkId} (hk : k ∈ links) :
    n₁.usageOf k = table.settledUsage traffic k := by
  obtain ⟨u, hu, husage⟩ := h.settled k hk
  rw [husage, hu]

/-- No link is lost. -/
theorem lt_usage (h : SettledFrom traffic table links n n₁) {k : LinkId}
    (hk : k.index < n.usage.size) : k.index < n₁.usage.size := by
  have hok : ∃ u, n₁.usageOf k = .ok u := by
    by_cases hmem : k ∈ links
    · obtain ⟨u, -, husage⟩ := h.settled k hmem
      exact ⟨u, husage⟩
    · rw [h.frame k hmem]
      exact ⟨_, Network.usageOf_eq_ok hk⟩
  obtain ⟨u, hu⟩ := hok
  exact (Array.getElem?_eq_some_iff.1 (Attempt.entry_eq_ok_iff.1 hu)).1

/-- A network can be settled on some links in one way only. -/
theorem unique (h₁ : SettledFrom traffic table links n n₁)
    (h₂ : SettledFrom traffic table links n n₂) : n₁ = n₂ := by
  refine Network.ext_usageOf (h₁.topology_eq.trans h₂.topology_eq.symm) fun k ↦ ?_
  by_cases hk : k ∈ links
  · rw [h₁.usageOf_eq hk, h₂.usageOf_eq hk]
  · rw [h₁.frame k hk, h₂.frame k hk]

/-- The links matter as a set only. -/
theorem congr (h : SettledFrom traffic table links n n₁) (hlinks : ∀ k, k ∈ links ↔ k ∈ links') :
    SettledFrom traffic table links' n n₁ where
  topology_eq := h.topology_eq
  frame k hk := h.frame k (mt (hlinks k).1 hk)
  settled k hk := h.settled k ((hlinks k).2 hk)

/-- **Settling twice** is settling once, for the later table, if the later links are the only ones
on which the two tables disagree. -/
theorem trans (h₁ : SettledFrom traffic table links n n₁)
    (h₂ : SettledFrom traffic table' links' n₁ n₂)
    (hsame : ∀ k ∉ links', table'.settledUsage traffic k = table.settledUsage traffic k) :
    SettledFrom traffic table' (links ++ links') n n₂ where
  topology_eq := h₂.topology_eq.trans h₁.topology_eq
  frame k hk := by
    rw [List.mem_append, not_or] at hk
    rw [h₂.frame k hk.2, h₁.frame k hk.1]
  settled k hk := by
    by_cases hlater : k ∈ links'
    · exact h₂.settled k hlater
    · rw [h₂.frame k hlater, hsame k hlater]
      exact h₁.settled k ((List.mem_append.1 hk).resolve_right hlater)

end Network.SettledFrom

namespace Ledger

variable {traffic : Traffic α} {a : Algorithm} {p : Placement} {f g : FlowId} {l l' : Ledger α}
  {routes : Array Route} {links : Nat} {network : Network α} {old old' : Route}

/-! ### What it takes to settle a route, and to route a flow again -/

theorem settledFrom_of_settle {route : Route} (h : l.settle traffic route = .ok l') :
    l'.table = l.table ∧ l.network.SettledFrom traffic l.table route l'.network := by
  obtain ⟨htable, htopology, hframe, hsettled⟩ := settle_eq_ok h
  exact ⟨htable, htopology, hframe, hsettled⟩

/-- A route over existing links can be settled if the sums can be formed. -/
theorem exists_settle {route : Route} (hin : ∀ k ∈ route, k.index < l.network.usage.size)
    (hsum : ∀ k ∈ route, ∃ u, l.table.settledUsage traffic k = .ok u) :
    ∃ l', l.settle traffic route = .ok l' ∧ l'.network.usage.size = l.network.usage.size := by
  induction route generalizing l with
  | nil => exact ⟨l, rfl, rfl⟩
  | cons k route ih =>
    obtain ⟨hk, hin⟩ := List.forall_mem_cons.1 hin
    obtain ⟨⟨u, hu⟩, hsum⟩ := List.forall_mem_cons.1 hsum
    rw [settle, hu, Attempt.ok_bind, Network.setUsage_eq_ok hk, Attempt.ok_bind]
    have hsize : (l.network.usage.setIfInBounds k.index u).size = l.network.usage.size :=
      Array.size_setIfInBounds
    obtain ⟨l', hl', hsize'⟩ := ih (l := { l with network :=
      { l.network with usage := l.network.usage.setIfInBounds k.index u } })
      (by simpa [hsize] using hin) hsum
    exact ⟨l', hl', hsize'.trans hsize⟩

/-- A route can be settled if its links exist and so do the flows that cross them. -/
theorem exists_settle_of_covers {route : Route} (htable : l.table = .ofRoutes routes links)
    (hin : ∀ k ∈ route, k.index < l.network.usage.size) (hlinks : ∀ k ∈ route, k.index < links)
    (hcovers : ∀ k ∈ route, traffic.Covers routes k) :
    ∃ l', l.settle traffic route = .ok l' ∧ l'.table = l.table ∧
      l'.network.usage.size = l.network.usage.size := by
  have hsum : ∀ k ∈ route, ∃ u, l.table.settledUsage traffic k = .ok u := fun k hk ↦ by
    rw [htable, RouteTable.exists_settledUsage_iff]
    exact ⟨hlinks k hk, hcovers k hk⟩
  obtain ⟨l', hl', hsize⟩ := exists_settle hin hsum
  exact ⟨l', hl', (settle_eq_ok hl').1, hsize⟩

/-- **What it takes to route a flow of a table again.** -/
structure Reroutable (traffic : Traffic α) (a : Algorithm) (p : Placement) (network : Network α)
    (routes : Array Route) (links : Nat) (f : FlowId) (old : Route) : Prop where
  /-- The flow exists. -/
  lt_flows : f.index < traffic.flows.size
  /-- It has a route. -/
  getElem?_eq : routes[f.index]? = some old
  /-- Looking for another one does not end with a fault. -/
  proper : (routeFlow traffic a network.topology p f).Proper
  /-- The links of both routes exist. -/
  lt_usage : ∀ k ∈ old ++ newRoute traffic a network.topology p f old, k.index < network.usage.size
  /-- The table has entries for the links of the new one. -/
  lt_links : ∀ k ∈ newRoute traffic a network.topology p f old, k.index < links
  /-- So do the flows that cross the links of both routes. -/
  covers : ∀ k ∈ old ++ newRoute traffic a network.topology p f old, traffic.Covers routes k

/-- **Routing a flow again and finding a route.** -/
theorem reroute_eq_ok (h : (l.reroute traffic a p f).result = .ok ()) :
    ∃ old bare new back between, l.withdraw traffic f = .ok (old, bare) ∧
      routeFlow traffic a bare.network.topology p f = .ok new ∧
      bare.deposit traffic f new = .ok back ∧ back.settle traffic old = .ok between ∧
      between.settle traffic new = .ok (l.reroute traffic a p f).state := by
  rw [reroute] at h ⊢
  cases hwithdraw : l.withdraw traffic f with
  | error why => simp [hwithdraw] at h
  | ok taken =>
    obtain ⟨old, bare⟩ := taken
    simp only [hwithdraw] at h ⊢
    cases hroute : routeFlow traffic a bare.network.topology p f with
    | error why =>
      simp only [hroute] at h
      exact absurd h Outcome.andThen_error_ne_ok
    | ok new =>
      simp only [hroute] at h ⊢
      obtain ⟨back, hdeposit, hput⟩ := Attempt.bind_eq_ok_iff.1 (Outcome.eq_ok_of_ofAttempt h)
      obtain ⟨between, hsettle, hput⟩ := Attempt.bind_eq_ok_iff.1 hput
      obtain ⟨after, hsettle', hput⟩ := Attempt.bind_eq_ok_iff.1 hput
      obtain ⟨-, hstate⟩ := Prod.mk.inj (Except.ok.inj hput)
      exact ⟨old, bare, new, back, between, rfl, hroute, hdeposit, hsettle, hstate ▸ hsettle'⟩

/-- The flow is taken off its links and put on those of its new route, or back on its old one. Then
the links of both routes are settled. -/
theorem exists_of_proper_reroute (h : (l.reroute traffic a p f).result.Proper) :
    ∃ old bare back, l.withdraw traffic f = .ok (old, bare) ∧
      (l.reroute traffic a p f).result =
        (routeFlow traffic a bare.network.topology p f).map (fun _ ↦ ()) ∧
      bare.deposit traffic f (newRoute traffic a bare.network.topology p f old) = .ok back ∧
      (l.reroute traffic a p f).state.table = back.table ∧
      back.network.SettledFrom traffic back.table
        (old ++ newRoute traffic a bare.network.topology p f old)
        (l.reroute traffic a p f).state.network := by
  match hresult : (l.reroute traffic a p f).result with
  | .ok () =>
    obtain ⟨old, bare, new, back, between, hwithdraw, hroute, hdeposit, hsettle, hsettle'⟩ :=
      reroute_eq_ok hresult
    have hnew := newRoute_of_eq_ok hroute old
    obtain ⟨htable, hfirst⟩ := settledFrom_of_settle hsettle
    obtain ⟨htable', hsecond⟩ := settledFrom_of_settle hsettle'
    rw [htable] at htable' hsecond
    rw [← hnew] at hdeposit hsecond
    exact ⟨old, bare, back, hwithdraw, by rw [hroute]; rfl, hdeposit, htable',
      hfirst.trans hsecond fun _ _ ↦ rfl⟩
  | .error (.error e) =>
    obtain ⟨old, bare, back, hwithdraw, hroute, hdeposit, hsettle⟩ := reroute_eq_fail hresult
    have hnew := newRoute_of_eq_error hroute old
    obtain ⟨htable, hsettled⟩ := settledFrom_of_settle hsettle
    refine ⟨old, bare, back, hwithdraw, by rw [hroute]; rfl, ?_⟩
    rw [hnew]
    exact ⟨hdeposit, htable, hsettled.congr (by simp)⟩
  | .error (.fault e) => exact absurd hresult (h e)

/-- What can be withdrawn is a route over existing links, of a flow that exists. -/
theorem lt_of_withdraw_eq_ok (h : l.withdraw traffic f = .ok (old, l')) :
    f.index < traffic.flows.size ∧ (∀ k ∈ old, k.index < l.network.usage.size) ∧
      l'.network.usage.size = l.network.usage.size := by
  obtain ⟨flow, hflow, h⟩ := Attempt.bind_eq_ok_iff.1 h
  obtain ⟨⟨_, table⟩, -, h⟩ := Attempt.bind_eq_ok_iff.1 h
  obtain ⟨network, hcharge, h⟩ := Attempt.bind_eq_ok_iff.1 h
  obtain ⟨rfl, rfl⟩ := Prod.mk.inj (Except.ok.inj h)
  have hin := Network.lt_of_charge_eq_ok hcharge
  rw [Network.charge_eq_ok _ _ hin] at hcharge
  obtain rfl := Except.ok.inj hcharge
  exact ⟨(Array.getElem?_eq_some_iff.1 (Attempt.entry_eq_ok_iff.1 hflow)).1, hin,
    Network.size_charged ..⟩

/-- What can be deposited is a route over links that exist and that the table knows. -/
theorem lt_of_deposit_eq_ok {route : Route} (htable : l.table = .ofRoutes routes links)
    (h : l.deposit traffic f route = .ok l') :
    (∀ k ∈ route, k.index < l.network.usage.size) ∧ ∀ k ∈ route, k.index < links := by
  obtain ⟨flow, -, h⟩ := Attempt.bind_eq_ok_iff.1 h
  obtain ⟨network, hcharge, h⟩ := Attempt.bind_eq_ok_iff.1 h
  obtain ⟨⟨_, table⟩, hstore, -⟩ := Attempt.bind_eq_ok_iff.1 h
  rw [htable] at hstore
  exact ⟨Network.lt_of_charge_eq_ok hcharge, (RouteTable.lt_of_replace_eq_ok hstore).2⟩

/-- **What routing a flow again does**: it exchanges the route and settles the links of both. -/
structure Rerouted (traffic : Traffic α) (a : Algorithm) (p : Placement) (network : Network α)
    (routes : Array Route) (links : Nat) (f : FlowId) (old : Route)
    (o : Outcome (Ledger α) α Unit) : Prop where
  /-- The flow has its new route, or its old one if there is no new one. -/
  table_eq : o.state.table = .ofRoutes
    (routes.setIfInBounds f.index (newRoute traffic a network.topology p f old)) links
  /-- The links of both routes are settled. -/
  settledFrom : network.SettledFrom traffic o.state.table
    (old ++ newRoute traffic a network.topology p f old) o.state.network
  /-- It succeeds if a route is found. -/
  result_eq : o.result = (routeFlow traffic a network.topology p f).map fun _ ↦ ()

/-- Routing a flow again either ends with a fault, or it does what it should. -/
theorem reroute_of_proper (htable : l.table = .ofRoutes routes links)
    (hover : RouteTable.Over links routes) (h : (l.reroute traffic a p f).result.Proper) :
    ∃ old, Reroutable traffic a p l.network routes links f old ∧
      Rerouted traffic a p l.network routes links f old (l.reroute traffic a p f) := by
  obtain ⟨old, bare, back, hwithdraw, hresult, hdeposit, hstored, hsettled⟩ :=
    exists_of_proper_reroute h
  obtain ⟨hold, hbare, htopology, hframe⟩ := withdraw_eq_ok htable hover hwithdraw
  obtain ⟨hf, holdUsage, hsize⟩ := lt_of_withdraw_eq_ok hwithdraw
  rw [htopology] at hresult hdeposit hsettled
  obtain ⟨hnewUsage, hnew⟩ := lt_of_deposit_eq_ok hbare hdeposit
  obtain ⟨hback, htopology', hframe'⟩ :=
    deposit_eq_ok hbare (hover.set f (List.forall_mem_nil _)) hdeposit
  rw [Array.setIfInBounds_setIfInBounds] at hback
  refine ⟨old, ⟨hf, hold, Attempt.proper_map.1 (hresult ▸ h),
    List.forall_mem_append.2 ⟨holdUsage, hsize ▸ hnewUsage⟩, hnew, fun k hk ↦ ?_⟩,
    hstored.trans hback, ?_, hresult⟩
  · obtain ⟨u, hu, -⟩ := hsettled.settled k hk
    rw [hback] at hu
    exact (Traffic.covers_setIfInBounds hf _).1 (RouteTable.exists_settledUsage_iff.1 ⟨u, hu⟩).2
  · rw [hstored]
    refine ⟨hsettled.topology_eq.trans (htopology'.trans htopology), fun k hk ↦ ?_,
      hsettled.settled⟩
    rw [hsettled.frame k hk]
    rw [List.mem_append, not_or] at hk
    exact (hframe' k hk.2).trans (hframe k hk.1)

/-- A flow that exists can be taken off links that exist. -/
theorem exists_withdraw (hf : f.index < traffic.flows.size)
    (htable : l.table = .ofRoutes routes links) (hover : RouteTable.Over links routes)
    (hold : routes[f.index]? = some old) (hin : ∀ k ∈ old, k.index < l.network.usage.size) :
    ∃ l', l.withdraw traffic f = .ok (old, l') := by
  obtain ⟨flow, hflow, -⟩ := Attempt.yields_entry (α := α) hf
  have hflow : traffic.flow f = .ok flow := hflow
  rw [withdraw, hflow, Attempt.ok_bind, RouteTable.take, htable,
    RouteTable.replace_ofRoutes hold (hover hold) (List.forall_mem_nil _), Attempt.ok_bind]
  show ∃ l', (l.network.charge .remove flow.bandwidth old >>= _) = _
  rw [Network.charge_eq_ok .remove flow.bandwidth hin]
  exact ⟨_, rfl⟩

/-- A flow that exists can be put on links that exist. -/
theorem exists_deposit {route : Route} (hf : f.index < traffic.flows.size)
    (htable : l.table = .ofRoutes routes links) (hover : RouteTable.Over links routes)
    (hold : routes[f.index]? = some old) (hin : ∀ k ∈ route, k.index < l.network.usage.size)
    (hroute : ∀ k ∈ route, k.index < links) :
    ∃ l', l.deposit traffic f route = .ok l' ∧
      l'.network.usage.size = l.network.usage.size := by
  obtain ⟨flow, hflow, -⟩ := Attempt.yields_entry (α := α) hf
  have hflow : traffic.flow f = .ok flow := hflow
  rw [deposit, hflow, Attempt.ok_bind, Network.charge_eq_ok .add flow.bandwidth hin,
    Attempt.ok_bind, htable, RouteTable.replace_ofRoutes hold (hover hold) hroute]
  exact ⟨_, rfl, Network.size_charged ..⟩

/-- A flow can be routed again without a fault if it is `Reroutable`. -/
theorem Reroutable.proper_reroute (hr : Reroutable traffic a p l.network routes links f old)
    (htable : l.table = .ofRoutes routes links) (hover : RouteTable.Over links routes) :
    (l.reroute traffic a p f).result.Proper := by
  obtain ⟨hf, hold, hproper, husage, hnew, hcovers⟩ := hr
  have hlt : f.index < routes.size := (Array.getElem?_eq_some_iff.1 hold).1
  obtain ⟨holdUsage, hnewUsage⟩ := List.forall_mem_append.1 husage
  obtain ⟨holdCovers, hnewCovers⟩ := List.forall_mem_append.1 hcovers
  obtain ⟨bare, hwithdraw⟩ := exists_withdraw hf htable hover hold holdUsage
  obtain ⟨-, hbare, htopology, -⟩ := withdraw_eq_ok htable hover hwithdraw
  obtain ⟨-, -, hsize⟩ := lt_of_withdraw_eq_ok hwithdraw
  have hover' : RouteTable.Over links (routes.setIfInBounds f.index []) :=
    hover.set f (List.forall_mem_nil _)
  obtain ⟨back, hdeposit, hsize'⟩ := exists_deposit hf hbare hover'
    (Array.getElem?_setIfInBounds_self_of_lt hlt) (hsize ▸ hnewUsage) hnew
  obtain ⟨hback, -⟩ := deposit_eq_ok hbare hover' hdeposit
  rw [Array.setIfInBounds_setIfInBounds] at hback
  -- the flow itself exists, so its new route is in nobody's way
  have hcross : ∀ k, traffic.Covers (routes.setIfInBounds f.index
      (newRoute traffic a l.network.topology p f old)) k ↔ traffic.Covers routes k :=
    fun k ↦ Traffic.covers_setIfInBounds hf _
  have hin : back.network.usage.size = l.network.usage.size := hsize'.trans hsize
  obtain ⟨between, hbetween, htable₁, hsize₁⟩ := exists_settle_of_covers hback
    (hin ▸ holdUsage) (hover hold) fun k hk ↦ (hcross k).2 (holdCovers k hk)
  obtain ⟨after, hafter, -⟩ := exists_settle_of_covers (htable₁.trans hback)
    ((hsize₁.trans hin) ▸ hnewUsage) hnew fun k hk ↦ (hcross k).2 (hnewCovers k hk)
  rw [reroute, hwithdraw]
  simp only [htopology]
  cases hroute : routeFlow traffic a l.network.topology p f with
  | ok new =>
    rw [newRoute_of_eq_ok hroute] at hdeposit hafter
    simp only [hdeposit, hbetween, hafter, Attempt.ok_bind]
    exact Attempt.proper_ok ()
  | error why =>
    rw [newRoute_of_eq_error hroute] at hdeposit
    simp only [hdeposit, hbetween, Attempt.ok_bind]
    exact fun e he ↦ hproper e (hroute.trans (congrArg Except.error (Except.error.inj he)))

/-- What can be routed again is. -/
theorem Reroutable.rerouted (hr : Reroutable traffic a p l.network routes links f old)
    (htable : l.table = .ofRoutes routes links) (hover : RouteTable.Over links routes) :
    Rerouted traffic a p l.network routes links f old (l.reroute traffic a p f) := by
  obtain ⟨old', hr', h⟩ := reroute_of_proper htable hover (hr.proper_reroute htable hover)
  obtain rfl : old' = old := Option.some.inj (hr'.getElem?_eq.symm.trans hr.getElem?_eq)
  exact h

/-! ### Two flows -/

/-- A flow that was routed again is in nobody's way. -/
theorem Reroutable.after (hg : Reroutable traffic a p network routes links g old)
    {o : Outcome (Ledger α) α Unit} {oldf : Route} (hf : f.index < traffic.flows.size)
    (ho : Rerouted traffic a p network routes links f oldf o)
    (hget : (routes.setIfInBounds f.index
      (newRoute traffic a network.topology p f oldf))[g.index]? = some old')
    (hnew : newRoute traffic a network.topology p g old' =
      newRoute traffic a network.topology p g old)
    (hsub : old' ⊆ old ++ newRoute traffic a network.topology p g old) :
    Reroutable traffic a p o.state.network
      (routes.setIfInBounds f.index (newRoute traffic a network.topology p f oldf)) links g
      old' := by
  have htopology := ho.settledFrom.topology_eq
  have hlinks : old' ++ newRoute traffic a network.topology p g old' ⊆
      old ++ newRoute traffic a network.topology p g old := by
    rw [hnew]
    exact List.append_subset.2 ⟨hsub, List.subset_append_right ..⟩
  refine ⟨hg.lt_flows, hget, htopology ▸ hg.proper, fun k hk ↦ ?_, fun k hk ↦ ?_, fun k hk ↦ ?_⟩
  · rw [htopology] at hk
    exact ho.settledFrom.lt_usage (hg.lt_usage k (hlinks hk))
  · rw [htopology, hnew] at hk
    exact hg.lt_links k hk
  · rw [htopology] at hk
    exact (Traffic.covers_setIfInBounds hf _).2 (hg.covers k (hlinks hk))

/-- **Two flows that are routed again** one after the other: all links of their routes are settled
for the table at the end. -/
theorem Rerouted.trans {o o' : Outcome (Ledger α) α Unit} (hgf : g ≠ f)
    (hg : routes[g.index]? = some old') (ho : Rerouted traffic a p network routes links f old o)
    (ho' : Rerouted traffic a p o.state.network
      (routes.setIfInBounds f.index (newRoute traffic a network.topology p f old)) links g
      old' o') :
    network.SettledFrom traffic o'.state.table
      ((old ++ newRoute traffic a network.topology p f old) ++
        (old' ++ newRoute traffic a network.topology p g old')) o'.state.network := by
  have htopology := ho.settledFrom.topology_eq
  have hget : (routes.setIfInBounds f.index
      (newRoute traffic a network.topology p f old))[g.index]? = some old' := by
    rw [Array.getElem?_setIfInBounds_ne fun h ↦ hgf (Id.ext h.symm), hg]
  refine htopology ▸ ho.settledFrom.trans ho'.settledFrom fun k hk ↦ ?_
  rw [ho'.table_eq, ho.table_eq]
  exact RouteTable.settledUsage_setIfInBounds hget hk

/-- A second time changes nothing. -/
theorem Rerouted.eq_of_again {o o' : Outcome (Ledger α) α Unit}
    (ho : Rerouted traffic a p network routes links f old o)
    (ho' : Rerouted traffic a p o.state.network
      (routes.setIfInBounds f.index (newRoute traffic a network.topology p f old)) links f
      (newRoute traffic a network.topology p f old) o') : o' = o := by
  have htopology := ho.settledFrom.topology_eq
  have htable : o'.state.table = o.state.table := by
    rw [ho'.table_eq, ho.table_eq, htopology, newRoute_newRoute, Array.setIfInBounds_setIfInBounds]
  have hsettled := ho'.settledFrom
  rw [htable, htopology, newRoute_newRoute] at hsettled
  have hnetwork : o'.state.network = o.state.network :=
    hsettled.unique ⟨rfl, fun _ _ ↦ rfl, fun k hk ↦ ho.settledFrom.settled k
      (List.mem_append_right _ ((List.mem_append.1 hk).elim id id))⟩
  refine Outcome.ext ?_ ?_
  · exact congrArg₂ Ledger.mk hnetwork htable
  · rw [ho'.result_eq, ho.result_eq, htopology]

/-- **Routing flows again is idempotent and does not depend on the order.** After any edits of the
empty table, and whatever the links carry, a flow that was routed again stays as it is when it is
routed again once more: the table, the usage of every link and the result are the same. Another flow
can be routed again afterwards if it could before, with the same result, and in which order the two
are routed again makes no difference to the table or to any link. -/
theorem reroute_confluent {es : List RouteTable.Edit} {flows : Nat}
    (htable : (RouteTable.edits es (.empty flows links) : Attempt α RouteTable) = .ok l.table)
    (hf : (l.reroute traffic a p f).result.Proper) :
    (l.reroute traffic a p f).state.reroute traffic a p f = l.reroute traffic a p f ∧
    ∀ g : FlowId, (l.reroute traffic a p g).result.Proper →
      ((l.reroute traffic a p f).state.reroute traffic a p g).result =
        (l.reroute traffic a p g).result ∧
      ((l.reroute traffic a p g).state.reroute traffic a p f).result =
        (l.reroute traffic a p f).result ∧
      ((l.reroute traffic a p f).state.reroute traffic a p g).state =
        ((l.reroute traffic a p g).state.reroute traffic a p f).state := by
  obtain ⟨routes, htable, hover⟩ := RouteTable.exists_ofRoutes_of_edits htable
  obtain ⟨oldf, hrf, hof⟩ := reroute_of_proper htable hover hf
  have hagain :
      (l.reroute traffic a p f).state.reroute traffic a p f = l.reroute traffic a p f := by
    have hlt := (Array.getElem?_eq_some_iff.1 hrf.getElem?_eq).1
    have hrf' := hrf.after hrf.lt_flows hof (Array.getElem?_setIfInBounds_self_of_lt hlt)
      (newRoute_newRoute f oldf) (List.subset_append_right ..)
    exact hof.eq_of_again (hrf'.rerouted hof.table_eq (hover.set f hrf.lt_links))
  refine ⟨hagain, fun g hg ↦ ?_⟩
  rcases eq_or_ne g f with rfl | hgf
  · rw [hagain]
    exact ⟨rfl, rfl, rfl⟩
  obtain ⟨oldg, hrg, hog⟩ := reroute_of_proper htable hover hg
  have hne : f.index ≠ g.index := fun h ↦ hgf (Id.ext h.symm)
  have hfg := (hrg.after hrf.lt_flows hof ((Array.getElem?_setIfInBounds_ne hne).trans
    hrg.getElem?_eq) rfl (List.subset_append_left ..)).rerouted hof.table_eq
      (hover.set f hrf.lt_links)
  have hgf' := (hrf.after hrg.lt_flows hog ((Array.getElem?_setIfInBounds_ne hne.symm).trans
    hrf.getElem?_eq) rfl (List.subset_append_left ..)).rerouted hog.table_eq
      (hover.set g hrg.lt_links)
  have htables : ((l.reroute traffic a p f).state.reroute traffic a p g).state.table =
      ((l.reroute traffic a p g).state.reroute traffic a p f).state.table := by
    rw [hfg.table_eq, hgf'.table_eq, hof.settledFrom.topology_eq, hog.settledFrom.topology_eq,
      Array.setIfInBounds_comm _ _ hne]
  refine ⟨?_, ?_, congrArg₂ Ledger.mk ?_ htables⟩
  · rw [hfg.result_eq, hog.result_eq, hof.settledFrom.topology_eq]
  · rw [hgf'.result_eq, hof.result_eq, hog.settledFrom.topology_eq]
  · have hone := hof.trans hgf hrg.getElem?_eq hfg
    have hother := hog.trans hgf.symm hrf.getElem?_eq hgf'
    rw [htables] at hone
    exact hone.unique (hother.congr fun _ ↦
      List.mem_append.trans (or_comm.trans List.mem_append.symm))

/-- On a row of three routers one flow leaves a link that the other one takes before and after, and
two links do not carry what they should. In both orders the flows end up alike. -/
theorem reroute_confluent_line :
    let l : Ledger Exact := ⟨Line.loaded, Line.detour⟩
    (RouteTable.edits [.replace ⟨0⟩ [⟨0⟩, ⟨1⟩, ⟨0⟩], .replace ⟨1⟩ [⟨1⟩]] (.empty 2 4) :
      Attempt Exact RouteTable) = .ok l.table ∧
    (l.reroute Line.traffic .fewestHops (Line.placed 2) ⟨0⟩).result = .ok () ∧
    (l.reroute Line.traffic .fewestHops (Line.placed 2) ⟨1⟩).result = .ok () ∧
    (l.reroute Line.traffic .fewestHops (Line.placed 2) ⟨0⟩).state.reroute Line.traffic .fewestHops
      (Line.placed 2) ⟨0⟩ = l.reroute Line.traffic .fewestHops (Line.placed 2) ⟨0⟩ ∧
    ((l.reroute Line.traffic .fewestHops (Line.placed 2) ⟨0⟩).state.reroute Line.traffic .fewestHops
      (Line.placed 2) ⟨1⟩).result = .ok () ∧
    ((l.reroute Line.traffic .fewestHops (Line.placed 2) ⟨0⟩).state.reroute Line.traffic .fewestHops
      (Line.placed 2) ⟨1⟩).state =
      ((l.reroute Line.traffic .fewestHops (Line.placed 2) ⟨1⟩).state.reroute Line.traffic
        .fewestHops (Line.placed 2) ⟨0⟩).state := by
  intro l
  have htable : (RouteTable.edits [.replace ⟨0⟩ [⟨0⟩, ⟨1⟩, ⟨0⟩], .replace ⟨1⟩ [⟨1⟩]] (.empty 2 4) :
      Attempt Exact RouteTable) = .ok l.table := by decide +kernel
  have hthere : (l.reroute Line.traffic .fewestHops (Line.placed 2) ⟨0⟩).result = .ok () := by
    decide +kernel
  have hback : (l.reroute Line.traffic .fewestHops (Line.placed 2) ⟨1⟩).result = .ok () := by
    decide +kernel
  obtain ⟨hagain, hothers⟩ := reroute_confluent htable (hthere ▸ Attempt.proper_ok ())
  obtain ⟨hresult, -, hstate⟩ := hothers ⟨1⟩ (hback ▸ Attempt.proper_ok ())
  exact ⟨htable, hthere, hback, hagain, hresult.trans hback, hstate⟩

end Ledger

end NetOnChip
