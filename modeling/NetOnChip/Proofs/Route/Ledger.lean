import NetOnChip.Proofs.Route.Demand

/-!
# The ledger of given routes

`Ledger.ofRoutes` is the ledger that some routes amount to: its table is that of the routes, and
every link carries what is demanded of it. Such a ledger is *settled*, and it is determined by its
topology and its routes alone.

* `reroute_eq` says all that routing one flow again does, whatever the links carry before: the flow
  has its new route, or its old one if there is no new one, and exactly the links of these two
  routes are settled.
* `settledOn_ofFn` is why a settled ledger then stays settled: the links that are not touched keep
  their usage, and the demand on them has not changed either. `reroute_cases` puts both together.
* `chargeAll_eq_ok_iff_of_usage` says that routing all flows for the first time ends with the routes
  that are found for the placement (`routesFor`), each charged once to what the links carried. It
  charges the links one flow after the other and settles nothing, so this is where the order of the
  additions matters. On unused links it ends in the ledger of these routes (`chargeAll_eq_ok_iff`).

Nothing is assumed of the topology or of the arithmetic.
-/

namespace NetOnChip

variable {α : Type} [Scalar α]

/-- Every flow has a route, and the routes take existing links only. -/
structure Admissible (traffic : Traffic α) (t : Topology α) (routes : Array Route) : Prop where
  /-- There is one route for every flow. -/
  size_eq : routes.size = traffic.flows.size
  /-- The links of the routes exist. -/
  lt_links : ∀ {f : FlowId} {route : Route}, routes[f.index]? = some route →
    ∀ l ∈ route, l.index < t.links.size

omit [Scalar α] in
/-- A route may be exchanged for another one over existing links. -/
theorem Admissible.set {traffic : Traffic α} {t : Topology α} {routes : Array Route}
    (h : Admissible traffic t routes) (f : FlowId) {route : Route}
    (hroute : ∀ l ∈ route, l.index < t.links.size) :
    Admissible traffic t (routes.setIfInBounds f.index route) where
  size_eq := by rw [Array.size_setIfInBounds, h.size_eq]
  lt_links := RouteTable.Over.set h.lt_links f hroute

omit [Scalar α] in
theorem Admissible.exists_flow {traffic : Traffic α} {t : Topology α} {routes : Array Route}
    (h : Admissible traffic t routes) {f : FlowId} {route : Route}
    (hroute : routes[f.index]? = some route) : ∃ flow, traffic.flow f = .ok flow := by
  obtain ⟨hlt, -⟩ := Array.getElem?_eq_some_iff.1 hroute
  exact ⟨_, Attempt.entry_eq_ok_iff.2 (Array.getElem?_eq_getElem (h.size_eq ▸ hlt))⟩

omit [Scalar α] in
theorem Admissible.lt_links_of_mem {traffic : Traffic α} {t : Topology α} {routes : Array Route}
    (h : Admissible traffic t routes) {e : Flow α × Route}
    (he : e ∈ traffic.flows.toList.zip routes.toList) : ∀ l ∈ e.2, l.index < t.links.size := by
  obtain ⟨i, hi⟩ := Array.mem_iff_getElem?.1 (Array.mem_toList_iff.1 (List.of_mem_zip he).2)
  exact h.lt_links (f := ⟨i⟩) hi

namespace Ledger

variable {traffic : Traffic α} {a : Algorithm} {t : Topology α} {p : Placement}
  {routes : Array Route} {usage : Array α} {f : FlowId} {old : Route}

/-- The ledger that some routes amount to. -/
def ofRoutes (traffic : Traffic α) (t : Topology α) (routes : Array Route) : Ledger α where
  network := ⟨t, .ofFn fun l : Fin t.links.size ↦ traffic.demand routes ⟨l⟩⟩
  table := .ofRoutes routes t.links.size

/-- What some routes demand of every link. -/
def demands (traffic : Traffic α) (t : Topology α) (routes : Array Route) : Array α :=
  .ofFn fun l : Fin t.links.size ↦ traffic.demand routes ⟨l⟩

@[simp] theorem size_demands : (demands traffic t routes).size = t.links.size :=
  Array.size_ofFn

theorem toList_demands :
    (demands traffic t routes).toList = (Id.range t.links.size).map (traffic.demand routes) :=
  List.ext_getElem (by simp) fun i _ _ ↦ by simp [demands, Id.range]

theorem ofRoutes_eq :
    ofRoutes traffic t routes = ⟨⟨t, demands traffic t routes⟩, .ofRoutes routes t.links.size⟩ :=
  rfl

@[simp] theorem topology_ofRoutes : (ofRoutes traffic t routes).network.topology = t := rfl

@[simp] theorem routes_ofRoutes : (ofRoutes traffic t routes).table.routes = routes := rfl

theorem usageOf_ofRoutes {l : LinkId} (hl : l.index < t.links.size) :
    (ofRoutes traffic t routes).network.usageOf l = .ok (traffic.demand routes l) := by
  refine Attempt.entry_eq_ok_iff.2 ?_
  rw [ofRoutes, Array.getElem?_ofFn, dif_pos hl]

/-! ### Settling links -/

/-- Usages in which the links of a route carry what is demanded of them. -/
def settledOn (traffic : Traffic α) (routes : Array Route) (links : Route) (usage : Array α) :
    Array α :=
  usage.mapIdx fun i u ↦ if (⟨i⟩ : LinkId) ∈ links then traffic.demand routes ⟨i⟩ else u

@[simp] theorem size_settledOn (links : Route) :
    (settledOn traffic routes links usage).size = usage.size :=
  Array.size_mapIdx

theorem settledOn_settledOn (first second : Route) :
    settledOn traffic routes second (settledOn traffic routes first usage) =
      settledOn traffic routes (first ++ second) usage := by
  refine Array.ext (by simp) fun i _ _ ↦ ?_
  simp only [settledOn, Array.getElem_mapIdx, List.mem_append]
  by_cases h₁ : (⟨i⟩ : LinkId) ∈ first <;> by_cases h₂ : (⟨i⟩ : LinkId) ∈ second <;> simp [h₁, h₂]

/-- What was charged to a link before it is settled leaves no trace. -/
theorem settledOn_charged {links route : Route} (h : route ⊆ links) (amount : α) :
    settledOn traffic routes links (Network.charged amount route usage) =
      settledOn traffic routes links usage := by
  refine Array.ext (by simp) fun i _ _ ↦ ?_
  simp only [settledOn, Network.charged, Array.getElem_mapIdx]
  by_cases hi : (⟨i⟩ : LinkId) ∈ links
  · rw [if_pos hi, if_pos hi]
  · rw [if_neg hi, if_neg hi, List.count_eq_zero.2 fun hmem ↦ hi (h hmem), addTimes]

theorem settle_eq (hsize : routes.size = traffic.flows.size) {route : Route}
    (hroute : ∀ l ∈ route, l.index < t.links.size) (hu : usage.size = t.links.size) :
    settle traffic route ⟨⟨t, usage⟩, .ofRoutes routes t.links.size⟩ =
      .ok ⟨⟨t, settledOn traffic routes route usage⟩, .ofRoutes routes t.links.size⟩ := by
  induction route generalizing usage with
  | nil =>
    have hnil : settledOn traffic routes [] usage = usage :=
      Array.ext (by simp) fun i _ _ ↦ by simp [settledOn]
    rw [settle, hnil]
  | cons k route ih =>
    have hk : k.index < t.links.size := hroute k List.mem_cons_self
    have hcons : settledOn traffic routes route
        (usage.setIfInBounds k.index (traffic.demand routes k)) =
          settledOn traffic routes (k :: route) usage := by
      refine Array.ext (by simp) fun i hi _ ↦ ?_
      have hi' : i < usage.size := by simpa using hi
      simp only [settledOn, Array.getElem_mapIdx, Array.getElem_setIfInBounds hi', List.mem_cons]
      rcases eq_or_ne k.index i with rfl | hki
      · simp
      · have hne : (⟨i⟩ : LinkId) ≠ k := fun e ↦ hki (e ▸ rfl)
        simp [hki, hne]
    rw [settle, settledUsage_ofRoutes hsize hk, Attempt.ok_bind,
      Network.setUsage_eq_ok (n := ⟨t, usage⟩) (hu.symm ▸ hk), Attempt.ok_bind]
    rw [ih (fun l hl ↦ hroute l (List.mem_cons_of_mem _ hl)) (by simpa using hu), hcons]

/-! ### Routing one flow again -/

/-- The route that a flow has after an attempt to route it again. -/
def newRoute (traffic : Traffic α) (a : Algorithm) (t : Topology α) (p : Placement) (f : FlowId)
    (old : Route) : Route :=
  (routeFlow traffic a t p f).toOption.getD old

theorem newRoute_of_eq_ok {new : Route} (h : routeFlow traffic a t p f = .ok new) (old : Route) :
    newRoute traffic a t p f old = new := by
  rw [newRoute, h]
  rfl

theorem newRoute_of_eq_error {e : Failure α} (h : routeFlow traffic a t p f = .error e)
    (old : Route) : newRoute traffic a t p f old = old := by
  rw [newRoute, h]
  rfl

theorem withdraw_eq {flow : Flow α} (h : Admissible traffic t routes)
    (hu : usage.size = t.links.size) (hold : routes[f.index]? = some old)
    (hflow : traffic.flow f = .ok flow) :
    withdraw traffic f ⟨⟨t, usage⟩, .ofRoutes routes t.links.size⟩ =
      .ok (old, ⟨⟨t, Network.charged (Network.signed .remove flow.bandwidth) old usage⟩,
        .ofRoutes (routes.setIfInBounds f.index []) t.links.size⟩) := by
  have hin : ∀ l ∈ old, l.index < t.links.size := h.lt_links hold
  rw [withdraw, hflow, Attempt.ok_bind, RouteTable.take,
    RouteTable.replace_ofRoutes hold hin (by simp), Attempt.ok_bind]
  show Network.charge .remove flow.bandwidth old ⟨t, usage⟩ >>= _ = _
  rw [Network.charge_eq_ok .remove flow.bandwidth (hu.symm ▸ hin)]
  rfl

theorem deposit_eq {flow : Flow α} {route : Route} (hu : usage.size = t.links.size)
    (hf : f.index < routes.size) (hroute : ∀ l ∈ route, l.index < t.links.size)
    (hflow : traffic.flow f = .ok flow) :
    deposit traffic f route
        ⟨⟨t, usage⟩, .ofRoutes (routes.setIfInBounds f.index []) t.links.size⟩ =
      .ok ⟨⟨t, Network.charged (Network.signed .add flow.bandwidth) route usage⟩,
        .ofRoutes (routes.setIfInBounds f.index route) t.links.size⟩ := by
  have hnil : (routes.setIfInBounds f.index [])[f.index]? = some [] :=
    Array.getElem?_setIfInBounds_self_of_lt hf
  rw [deposit, hflow, Attempt.ok_bind,
    Network.charge_eq_ok (n := ⟨t, usage⟩) .add flow.bandwidth (hu.symm ▸ hroute),
    Attempt.ok_bind, RouteTable.replace_ofRoutes hnil (by simp) hroute,
    Array.setIfInBounds_setIfInBounds]
  rfl

/-- **Routing one flow again.** The flow takes the route that was found, or keeps its old one, and
exactly the links of the old and of the new route are settled. -/
theorem reroute_eq (h : Admissible traffic t routes) (hu : usage.size = t.links.size)
    (hold : routes[f.index]? = some old)
    (hnew : ∀ l ∈ newRoute traffic a t p f old, l.index < t.links.size) :
    reroute traffic a p f ⟨⟨t, usage⟩, .ofRoutes routes t.links.size⟩ =
      ⟨⟨⟨t, settledOn traffic (routes.setIfInBounds f.index (newRoute traffic a t p f old))
          (old ++ newRoute traffic a t p f old) usage⟩,
        .ofRoutes (routes.setIfInBounds f.index (newRoute traffic a t p f old)) t.links.size⟩,
        (routeFlow traffic a t p f).map fun _ ↦ ()⟩ := by
  obtain ⟨flow, hflow⟩ := h.exists_flow hold
  have hf : f.index < routes.size := (Array.getElem?_eq_some_iff.1 hold).1
  have hin : ∀ l ∈ old, l.index < t.links.size := h.lt_links hold
  have hsize : ∀ route, (routes.setIfInBounds f.index route).size = traffic.flows.size :=
    fun route ↦ by rw [Array.size_setIfInBounds, h.size_eq]
  rw [reroute, withdraw_eq h hu hold hflow]
  cases hr : routeFlow traffic a t p f with
  | ok new =>
    have hfound := newRoute_of_eq_ok hr old
    rw [hfound] at hnew ⊢
    simp only [hr]
    rw [deposit_eq (by simpa using hu) hf hnew hflow, Attempt.ok_bind,
      settle_eq (hsize new) hin (by simpa using hu), Attempt.ok_bind,
      settle_eq (hsize new) hnew (by simpa using hu), Attempt.ok_bind, settledOn_settledOn,
      settledOn_charged (List.subset_append_right ..),
      settledOn_charged (List.subset_append_left ..)]
    rfl
  | error e =>
    have hkept := newRoute_of_eq_error hr old
    have hself : settledOn traffic (routes.setIfInBounds f.index old) old usage =
        settledOn traffic (routes.setIfInBounds f.index old) (old ++ old) usage := by
      simp [settledOn]
    rw [hkept]
    simp only [hr]
    rw [deposit_eq (by simpa using hu) hf hin hflow, Attempt.ok_bind,
      settle_eq (hsize old) hin (by simpa using hu), Attempt.ok_bind,
      settledOn_charged (List.Subset.refl _), settledOn_charged (List.Subset.refl _), hself]
    rfl

/-- Settling the links of the old and of the new route is enough: on all others the demand has not
changed. -/
theorem settledOn_ofFn (hold : routes[f.index]? = some old) (new : Route) :
    settledOn traffic (routes.setIfInBounds f.index new) (old ++ new)
        (.ofFn fun l : Fin t.links.size ↦ traffic.demand routes ⟨l⟩) =
      .ofFn fun l : Fin t.links.size ↦
        traffic.demand (routes.setIfInBounds f.index new) ⟨l⟩ := by
  refine Array.ext (by simp) fun i _ _ ↦ ?_
  simp only [settledOn, Array.getElem_mapIdx, Array.getElem_ofFn]
  by_cases hi : (⟨i⟩ : LinkId) ∈ old ++ new
  · rw [if_pos hi]
  · rw [if_neg hi, demand_setIfInBounds traffic hold hi]

/-- A route over existing links was found, or none was. -/
def Sound (t : Topology α) (x : Attempt α Route) : Prop :=
  x.Ensures fun route ↦ ∀ l ∈ route, l.index < t.links.size

/-- A flow that does not exist cannot be routed again. -/
theorem reroute_missing (l : Ledger α) (hf : traffic.flows.size ≤ f.index) :
    ¬ Sound t (routeFlow traffic a t p f) ∧
      ∃ e, (l.reroute traffic a p f).result = .error (.fault e) := by
  have hflow : traffic.flow f = .error (.fault (.missing .flow f.index)) := by
    rw [Traffic.flow, Attempt.entry, Array.getElem?_eq_none hf]
    rfl
  refine ⟨fun hsound ↦ ?_, .missing .flow f.index, ?_⟩
  · rw [routeFlow, hflow] at hsound
    exact hsound
  · rw [reroute, withdraw, hflow]
    rfl

/-- A route over a link that does not exist cannot be taken. -/
theorem reroute_overrun (h : Admissible traffic t routes) (hu : usage.size = t.links.size)
    (hold : routes[f.index]? = some old)
    (hnew : ∃ l ∈ newRoute traffic a t p f old, t.links.size ≤ l.index) :
    ∃ e, (reroute traffic a p f ⟨⟨t, usage⟩, .ofRoutes routes t.links.size⟩).result =
      .error (.fault e) := by
  obtain ⟨flow, hflow⟩ := h.exists_flow hold
  obtain ⟨l, hl, hle⟩ := hnew
  rw [reroute, withdraw_eq h hu hold hflow]
  cases hr : routeFlow traffic a t p f with
  | ok new =>
    have hfound := newRoute_of_eq_ok hr old
    obtain ⟨e, he⟩ := Network.charge_eq_fault .add flow.bandwidth
      (n := ⟨t, Network.charged (Network.signed .remove flow.bandwidth) old usage⟩)
      ⟨l, hfound ▸ hl, by simpa [hu] using hle⟩
    refine ⟨e, ?_⟩
    simp only [hr]
    rw [deposit, hflow, Attempt.ok_bind, he]
    rfl
  | error e =>
    have hkept := newRoute_of_eq_error hr old
    exact absurd (h.lt_links hold l (hkept ▸ hl)) (Nat.not_lt.2 hle)

/-- Routes and usages before and after some flows were routed again. Nothing is assumed of what the
links carried, but if it was what the routes demand of them then it still is. -/
structure Follows (traffic : Traffic α) (t : Topology α) (routes : Array Route) (usage : Array α)
    (routes' : Array Route) (usage' : Array α) : Prop where
  /-- The routes take existing links. -/
  admissible : Admissible traffic t routes'
  /-- Every link has a usage, as before. -/
  size_eq : usage'.size = usage.size
  /-- Links that carried what was demanded of them do so again. -/
  demands_eq : usage = demands traffic t routes → usage' = demands traffic t routes'

theorem Follows.refl (h : Admissible traffic t routes) (usage : Array α) :
    Follows traffic t routes usage routes usage :=
  ⟨h, rfl, id⟩

theorem Follows.trans {routes' routes'' : Array Route} {usage' usage'' : Array α}
    (h : Follows traffic t routes usage routes' usage')
    (h' : Follows traffic t routes' usage' routes'' usage'') :
    Follows traffic t routes usage routes'' usage'' :=
  ⟨h'.admissible, h'.size_eq.trans h.size_eq, h'.demands_eq ∘ h.demands_eq⟩

/-- **Routing a flow again, on links that may carry anything.** The flow has its new route or keeps
its old one, unless there is no such flow or what was found is no route over existing links. -/
theorem reroute_cases (h : Admissible traffic t routes) (hu : usage.size = t.links.size)
    (f : FlowId) :
    (∃ old usage', routes[f.index]? = some old ∧
      Follows traffic t routes usage
        (routes.setIfInBounds f.index (newRoute traffic a t p f old)) usage' ∧
      reroute traffic a p f ⟨⟨t, usage⟩, .ofRoutes routes t.links.size⟩ =
        ⟨⟨⟨t, usage'⟩,
          .ofRoutes (routes.setIfInBounds f.index (newRoute traffic a t p f old)) t.links.size⟩,
        (routeFlow traffic a t p f).map fun _ ↦ ()⟩) ∨
      ¬ Sound t (routeFlow traffic a t p f) ∧
        ∃ e, (reroute traffic a p f ⟨⟨t, usage⟩, .ofRoutes routes t.links.size⟩).result =
          .error (.fault e) := by
  rcases Nat.lt_or_ge f.index traffic.flows.size with hf | hf
  swap
  · exact .inr (reroute_missing _ hf)
  obtain ⟨old, hold⟩ : ∃ old, routes[f.index]? = some old :=
    ⟨_, Array.getElem?_eq_getElem (h.size_eq ▸ hf)⟩
  by_cases hnew : ∀ l ∈ newRoute traffic a t p f old, l.index < t.links.size
  · refine .inl ⟨old, _, hold, ⟨h.set f hnew, by simp, ?_⟩, reroute_eq h hu hold hnew⟩
    rintro rfl
    exact settledOn_ofFn hold _
  · simp only [not_forall, Nat.not_lt] at hnew
    obtain ⟨l, hl, hle⟩ := hnew
    refine .inr ⟨fun hsound ↦ ?_, reroute_overrun h hu hold ⟨l, hl, hle⟩⟩
    rw [newRoute] at hl
    cases hroute : routeFlow traffic a t p f with
    | ok route =>
      rw [hroute] at hl hsound
      exact absurd (hsound l hl) (Nat.not_lt.2 hle)
    | error e =>
      rw [hroute] at hl
      exact absurd (h.lt_links hold l hl) (Nat.not_lt.2 hle)

/-! ### Routes of several flows -/

/-- Routes after an attempt to route some of the flows again. -/
def reassign (traffic : Traffic α) (a : Algorithm) (topology : Topology α) (p : Placement)
    (flows : List FlowId) (routes : Array Route) : Array Route :=
  routes.mapIdx fun i route ↦
    if (⟨i⟩ : FlowId) ∈ flows then newRoute traffic a topology p ⟨i⟩ route else route

@[simp] theorem size_reassign {flows : List FlowId} :
    (reassign traffic a t p flows routes).size = routes.size :=
  Array.size_mapIdx

theorem getElem?_reassign {flows : List FlowId} (f : FlowId) :
    (reassign traffic a t p flows routes)[f.index]? =
      routes[f.index]?.map fun route ↦
        if f ∈ flows then newRoute traffic a t p f route else route := by
  rw [reassign, Array.getElem?_mapIdx]

theorem reassign_nil : reassign traffic a t p [] routes = routes :=
  Array.ext (by simp) fun i _ _ ↦ by simp [reassign]

/-- A second attempt makes no difference. -/
theorem newRoute_newRoute (f : FlowId) (old : Route) :
    newRoute traffic a t p f (newRoute traffic a t p f old) = newRoute traffic a t p f old := by
  unfold newRoute
  cases routeFlow traffic a t p f <;> rfl

theorem reassign_cons {flows : List FlowId} (hold : routes[f.index]? = some old) :
    reassign traffic a t p (f :: flows) routes =
      reassign traffic a t p flows
        (routes.setIfInBounds f.index (newRoute traffic a t p f old)) := by
  obtain ⟨hlt, rfl⟩ := Array.getElem?_eq_some_iff.1 hold
  refine Array.ext (by simp) fun i hi _ ↦ ?_
  have hi' : i < routes.size := by simpa using hi
  simp only [reassign, Array.getElem_mapIdx, Array.getElem_setIfInBounds hi', List.mem_cons]
  rcases eq_or_ne f.index i with rfl | hif
  · simp [newRoute_newRoute]
  · have hne : (⟨i⟩ : FlowId) ≠ f := fun e ↦ hif (e ▸ rfl)
    simp [hif, hne]

/-! ### The routes for a placement -/

/-- The routes that an algorithm finds for a placement. -/
def routesFor (traffic : Traffic α) (a : Algorithm) (t : Topology α) (p : Placement) :
    Array Route :=
  .ofFn fun f : Fin traffic.flows.size ↦ newRoute traffic a t p ⟨f⟩ []

/-- Every flow has a route for a placement. -/
def Routable (traffic : Traffic α) (a : Algorithm) (t : Topology α) (p : Placement) : Prop :=
  ∀ f : FlowId, f.index < traffic.flows.size → ∃ route, routeFlow traffic a t p f = .ok route

@[simp] theorem size_routesFor : (routesFor traffic a t p).size = traffic.flows.size :=
  Array.size_ofFn

theorem getElem?_routesFor (hf : f.index < traffic.flows.size) :
    (routesFor traffic a t p)[f.index]? = some (newRoute traffic a t p f []) := by
  rw [routesFor, Array.getElem?_ofFn, dif_pos hf]

/-- The routes for a placement are found there. -/
theorem routeFlow_of_getElem?_routesFor (h : Routable traffic a t p) {route : Route}
    (hroute : (routesFor traffic a t p)[f.index]? = some route) :
    routeFlow traffic a t p f = .ok route := by
  have hf : f.index < traffic.flows.size := by
    simpa using (Array.getElem?_eq_some_iff.1 hroute).1
  obtain ⟨found, hfound⟩ := h f hf
  rw [getElem?_routesFor hf, newRoute, hfound] at hroute
  rw [hfound, ← Option.some.inj hroute]
  rfl

/-- Routes are those for a placement if some flows are routed again for it and the other ones have
their routes for it already. -/
theorem reassign_eq_routesFor {flows : List FlowId} (hsize : routes.size = traffic.flows.size)
    (hfound : ∀ f ∈ flows, ∃ route, routeFlow traffic a t p f = .ok route)
    (hothers : ∀ f : FlowId, f ∉ flows →
      routes[f.index]? = (routesFor traffic a t p)[f.index]?) :
    reassign traffic a t p flows routes = routesFor traffic a t p := by
  refine Array.ext (by simp [hsize]) fun i hi hi' ↦ ?_
  by_cases hf : (⟨i⟩ : FlowId) ∈ flows
  · obtain ⟨route, hroute⟩ := hfound ⟨i⟩ hf
    simp [reassign, routesFor, hf, newRoute, hroute, Except.toOption]
  · have h := hothers ⟨i⟩ hf
    have hi'' : i < routes.size := by simpa using hi
    rw [Array.getElem?_eq_getElem hi'', Array.getElem?_eq_getElem hi', Option.some.injEq] at h
    simp [reassign, hf, h]

/-! ### Routing all flows for the first time -/

/-- The flows with their routes for a placement. -/
def routedFor (traffic : Traffic α) (a : Algorithm) (t : Topology α) (p : Placement) :
    List (Flow α × Route) :=
  traffic.flows.toList.zip (routesFor traffic a t p).toList

/-- **Routing the flows from one on**, whatever routes they have and whatever the links carry. Every
flow adds to its links in turn. -/
theorem chargeAll_drop (h : Admissible traffic t routes) (hu : usage.size = t.links.size)
    (hroutable : Routable traffic a t p) (hfound : Admissible traffic t (routesFor traffic a t p))
    {n : Nat} (hn : n ≤ traffic.flows.size) :
    chargeAll traffic a p (traffic.flowIds.drop n) ⟨⟨t, usage⟩, .ofRoutes routes t.links.size⟩ =
      .ok ⟨⟨t, Network.chargedFor ((routedFor traffic a t p).drop n) usage⟩,
        .ofRoutes (reassign traffic a t p (traffic.flowIds.drop n) routes) t.links.size⟩ := by
  -- the induction is on the number of flows that are left
  induction hm : traffic.flows.size - n generalizing n routes usage with
  | zero =>
    obtain rfl : n = traffic.flows.size := by omega
    rw [List.drop_eq_nil_of_le (by simp [Traffic.flowIds]),
      List.drop_eq_nil_of_le (by simp [routedFor]), chargeAll, reassign_nil, Network.chargedFor_nil]
  | succ m ih =>
    have hlt : n < traffic.flows.size := by omega
    obtain ⟨route, hroute⟩ := hroutable ⟨n⟩ hlt
    have hget : (routesFor traffic a t p)[n]? = some route := by
      rw [getElem?_routesFor (f := ⟨n⟩) hlt, newRoute, hroute]
      rfl
    have hin : ∀ l ∈ route, l.index < t.links.size := hfound.lt_links (f := ⟨n⟩) hget
    have hflows : traffic.flowIds.drop n = ⟨n⟩ :: traffic.flowIds.drop (n + 1) := by
      rw [List.drop_eq_getElem_cons (by simpa [Traffic.flowIds] using hlt)]
      simp [Traffic.flowIds, Id.range]
    have hrouted : (routedFor traffic a t p).drop n =
        (traffic.flows[n], route) :: (routedFor traffic a t p).drop (n + 1) := by
      obtain ⟨_, hgetElem⟩ := Array.getElem?_eq_some_iff.1 hget
      rw [List.drop_eq_getElem_cons (by simpa [routedFor] using hlt)]
      simp [routedFor, hgetElem]
    have hflow : traffic.flow ⟨n⟩ = .ok traffic.flows[n] :=
      Attempt.entry_eq_ok_iff.2 (Array.getElem?_eq_getElem hlt)
    obtain ⟨old, hold⟩ : ∃ old, routes[n]? = some old :=
      ⟨_, Array.getElem?_eq_getElem (h.size_eq ▸ hlt)⟩
    have hnew := newRoute_of_eq_ok hroute old
    rw [hflows, hrouted, chargeAll, hroute, Attempt.ok_bind,
      RouteTable.replace_ofRoutes (f := ⟨n⟩) hold (h.lt_links (f := ⟨n⟩) hold) hin,
      Attempt.ok_bind]
    show traffic.flow ⟨n⟩ >>= _ = _
    rw [hflow, Attempt.ok_bind,
      Network.charge_eq_ok (n := ⟨t, usage⟩) .add _ (hu.symm ▸ hin), Attempt.ok_bind,
      reassign_cons (f := ⟨n⟩) hold, hnew, Network.chargedFor_cons]
    exact ih (h.set ⟨n⟩ hin) (by simpa using hu) hlt (by omega)

/-- The route of every flow is found and can be charged, if routing all of them succeeds. -/
theorem exists_route_of_chargeAll {flows : List FlowId} {l l' : Ledger α}
    (h : chargeAll traffic a p flows l = .ok l') {f : FlowId} (hf : f ∈ flows) :
    ∃ route, routeFlow traffic a l.network.topology p f = .ok route ∧
      ∀ k ∈ route, k.index < l.network.usage.size := by
  induction flows generalizing l with
  | nil => exact absurd hf List.not_mem_nil
  | cons g flows ih =>
    rw [chargeAll] at h
    obtain ⟨route, hroute, h⟩ := Attempt.bind_eq_ok_iff.1 h
    obtain ⟨⟨_, table⟩, _, h⟩ := Attempt.bind_eq_ok_iff.1 h
    obtain ⟨flow, _, h⟩ := Attempt.bind_eq_ok_iff.1 h
    obtain ⟨network, hcharge, h⟩ := Attempt.bind_eq_ok_iff.1 h
    have hin := Network.lt_of_charge_eq_ok hcharge
    rw [Network.charge_eq_ok _ _ hin, Except.ok.injEq] at hcharge
    subst hcharge
    rcases List.mem_cons.1 hf with rfl | hf'
    · exact ⟨route, hroute, hin⟩
    · simpa using ih h hf'

/-- **Routing all flows for the first time** succeeds exactly when every flow has a route over
existing links. It ends with these routes, each charged once to what the links carried before. -/
theorem chargeAll_eq_ok_iff_of_usage (h : Admissible traffic t routes)
    (hu : usage.size = t.links.size) {l : Ledger α} :
    chargeAll traffic a p traffic.flowIds ⟨⟨t, usage⟩, .ofRoutes routes t.links.size⟩ = .ok l ↔
      Routable traffic a t p ∧ Admissible traffic t (routesFor traffic a t p) ∧
        l = ⟨⟨t, Network.chargedFor (routedFor traffic a t p) usage⟩,
          .ofRoutes (routesFor traffic a t p) t.links.size⟩ := by
  have hall : Routable traffic a t p → Admissible traffic t (routesFor traffic a t p) →
      chargeAll traffic a p traffic.flowIds ⟨⟨t, usage⟩, .ofRoutes routes t.links.size⟩ =
        .ok ⟨⟨t, Network.chargedFor (routedFor traffic a t p) usage⟩,
          .ofRoutes (routesFor traffic a t p) t.links.size⟩ := by
    intro hroutable hadm
    have hreassign : reassign traffic a t p traffic.flowIds routes = routesFor traffic a t p := by
      refine reassign_eq_routesFor h.size_eq (fun f hf ↦ hroutable f (Id.mem_range.1 hf))
        fun f hf ↦ ?_
      have hle : traffic.flows.size ≤ f.index := Nat.not_lt.1 fun hlt ↦ hf (Id.mem_range.2 hlt)
      rw [Array.getElem?_eq_none (h.size_eq ▸ hle), Array.getElem?_eq_none (by simpa using hle)]
    have := chargeAll_drop h hu hroutable hadm (Nat.zero_le _)
    rwa [List.drop_zero, List.drop_zero, hreassign] at this
  constructor
  · intro hcharge
    have hfound : ∀ f : FlowId, f.index < traffic.flows.size →
        ∃ route, routeFlow traffic a t p f = .ok route ∧ ∀ k ∈ route, k.index < t.links.size := by
      intro f hf
      simpa [hu] using exists_route_of_chargeAll hcharge (Id.mem_range.2 hf)
    have hroutable : Routable traffic a t p := fun f hf ↦ (hfound f hf).imp fun _ ↦ And.left
    have hadm : Admissible traffic t (routesFor traffic a t p) := by
      refine ⟨size_routesFor, fun {f route} hroute ↦ ?_⟩
      have hf : f.index < traffic.flows.size := by
        simpa using (Array.getElem?_eq_some_iff.1 hroute).1
      obtain ⟨found, hroute', hin⟩ := hfound f hf
      rw [routeFlow_of_getElem?_routesFor hroutable hroute] at hroute'
      cases hroute'
      exact hin
    rw [hall hroutable hadm, Except.ok.injEq] at hcharge
    exact ⟨hroutable, hadm, hcharge.symm⟩
  · rintro ⟨hroutable, hadm, rfl⟩
    exact hall hroutable hadm

/-- Charging all routes to unused links makes every link carry what is demanded of it. -/
theorem chargedFor_replicate (routes : Array Route) :
    Network.chargedFor (traffic.flows.toList.zip routes.toList) (Array.replicate t.links.size 0) =
      demands traffic t routes := by
  refine Array.ext_getElem? fun i ↦ ?_
  rw [demands, Array.getElem?_ofFn]
  split <;> rename_i hi
  · exact Network.getElem?_chargedFor_replicate (l := ⟨i⟩) _ hi
  · exact Array.getElem?_eq_none (by simpa using hi)

/-- Unused links and empty routes are the ledger of no routes. -/
theorem ofRoutes_replicate (n : Nat) :
    ofRoutes traffic t (Array.replicate n []) =
      ⟨.ofTopology t, .empty n t.links.size⟩ := by
  have hzero : ∀ l, traffic.demand (Array.replicate n []) l = 0 := by
    intro l
    have hidle : ∀ e ∈ traffic.flows.toList.zip (Array.replicate n ([] : Route)).toList,
        e.2 = [] := by
      intro e he
      exact (List.mem_replicate.1 (Array.toList_replicate ▸ (List.of_mem_zip he).2)).2
    rw [Traffic.demand, ← List.nil_append (traffic.flows.toList.zip _),
      demandOn_append_of_empty l [] hidle]
    rfl
  rw [ofRoutes, RouteTable.empty_eq_ofRoutes, Network.ofTopology]
  congr 2
  exact Array.ext (by simp) fun i _ _ ↦ by simp [hzero]

omit [Scalar α] in
/-- Empty routes take existing links only. -/
theorem admissible_replicate :
    Admissible traffic t (Array.replicate traffic.flows.size []) where
  size_eq := Array.size_replicate
  lt_links := RouteTable.over_replicate _ _

/-- **Routing all flows for the first time**, on unused links, ends in the ledger of the routes for
the placement. -/
theorem chargeAll_eq_ok_iff {l : Ledger α} :
    chargeAll traffic a p traffic.flowIds
        (ofRoutes traffic t (Array.replicate traffic.flows.size [])) = .ok l ↔
      Routable traffic a t p ∧ Admissible traffic t (routesFor traffic a t p) ∧
        l = ofRoutes traffic t (routesFor traffic a t p) := by
  rw [ofRoutes_replicate, RouteTable.empty_eq_ofRoutes, Network.ofTopology,
    chargeAll_eq_ok_iff_of_usage admissible_replicate (by simp), routedFor, chargedFor_replicate]
  rfl

/-- **Routing all flows for the first time**, on links that may carry anything, finds a route over
existing links for every flow. -/
theorem table_of_chargeAll (hu : usage.size = t.links.size) {l : Ledger α}
    (h : chargeAll traffic a p traffic.flowIds
      ⟨⟨t, usage⟩, .empty traffic.flows.size t.links.size⟩ = .ok l) :
    Routable traffic a t p ∧ Admissible traffic t (routesFor traffic a t p) ∧
      ∃ usage', usage'.size = t.links.size ∧
        l = ⟨⟨t, usage'⟩, .ofRoutes (routesFor traffic a t p) t.links.size⟩ := by
  rw [RouteTable.empty_eq_ofRoutes, chargeAll_eq_ok_iff_of_usage admissible_replicate hu] at h
  obtain ⟨hroutable, hadm, rfl⟩ := h
  exact ⟨hroutable, hadm, _, by simpa using hu, rfl⟩

end Ledger

end NetOnChip
