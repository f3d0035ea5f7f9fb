import NetOnChip.Proofs.Route.Table
import NetOnChip.Route.Ledger

/-!
# Demand and usage

Four ways to come to the usage of a link. `Traffic.demand` follows all routes from the lowest flow
on and looks at one link, `addAlong` follows them once for all links, `RouteTable.settledUsage` goes
through the crossings of the link, and `Network.charge` adds to what the link carries already.

No law of arithmetic is used to compare them. They agree because they make the same additions in the
same order (`settledUsage_ofRoutes`, `foldlM_addAlong_eq_ok`, `Network.chargeRoutes_eq_ok`), and
because a route touches its own links only, each as often as it takes it (`demand_setIfInBounds`).
-/

namespace NetOnChip

variable {α : Type} [Scalar α]

/-! ### Demand -/

/-- The bandwidth that a link has to carry, added up from zero: all routes are followed from the
lowest flow on, and every time the link comes up the bandwidth of the flow is added. -/
def demandOn (l : LinkId) (routed : List (Flow α × Route)) : α :=
  routed.foldl
    (fun sum (flow, route) ↦
      route.foldl (fun sum k ↦ if k = l then sum + flow.bandwidth else sum) sum)
    0

/-- The bandwidth that a link has to carry when the flows take given routes. -/
def Traffic.demand (traffic : Traffic α) (routes : Array Route) (l : LinkId) : α :=
  demandOn l (traffic.flows.toList.zip routes.toList)

/-- Following a route adds the bandwidth as often as the route takes the link. -/
theorem foldl_route_eq_addTimes (bandwidth : α) (l : LinkId) (route : Route) (sum : α) :
    route.foldl (fun sum k ↦ if k = l then sum + bandwidth else sum) sum =
      addTimes bandwidth (route.count l) sum := by
  induction route generalizing sum with
  | nil => rfl
  | cons k route ih =>
    rw [List.foldl_cons, ih]
    rcases eq_or_ne k l with rfl | hkl
    · rw [if_pos rfl, List.count_cons_self, addTimes]
    · rw [if_neg hkl, List.count_cons_of_ne hkl]

/-- One more flow adds its bandwidth as often as its route takes the link. -/
theorem demandOn_concat (l : LinkId) (routed : List (Flow α × Route)) (flow : Flow α)
    (route : Route) : demandOn l (routed ++ [(flow, route)]) =
      addTimes flow.bandwidth (route.count l) (demandOn l routed) := by
  rw [demandOn, List.foldl_append, ← demandOn]
  exact foldl_route_eq_addTimes ..

/-- Flows without a route add nothing. -/
theorem demandOn_append_of_empty (l : LinkId) (routed : List (Flow α × Route))
    {idle : List (Flow α × Route)} (h : ∀ e ∈ idle, e.2 = []) :
    demandOn l (routed ++ idle) = demandOn l routed := by
  induction idle generalizing routed with
  | nil => rw [List.append_nil]
  | cons e idle ih =>
    rw [List.append_cons, ih _ fun e' he' ↦ h e' (List.mem_cons_of_mem _ he'), demandOn_concat,
      h e List.mem_cons_self]
    rfl

/-- The demand on a link depends on how often the routes take it, and on nothing else. -/
theorem demandOn_zip (l : LinkId) (flows : List (Flow α)) (routes : List Route) :
    demandOn l (flows.zip routes) =
      (flows.zip (routes.map fun route ↦ route.count l)).foldl
        (fun sum e ↦ addTimes e.1.bandwidth e.2 sum) 0 := by
  simp only [demandOn, foldl_route_eq_addTimes, List.zip_map_right, List.foldl_map, Prod.map, id]

/-- **A new route changes the demand on its own links only**, and on those of the old one. -/
theorem demand_setIfInBounds (traffic : Traffic α) {routes : Array Route} {f : FlowId}
    {old route : Route} {l : LinkId} (hold : routes[f.index]? = some old) (hl : l ∉ old ++ route) :
    traffic.demand (routes.setIfInBounds f.index route) l = traffic.demand routes l := by
  obtain ⟨hin, hget⟩ := Array.getElem?_eq_some_iff.1 hold
  have hcount : route.count l = old.count l := by
    rw [List.count_eq_zero.2 fun h ↦ hl (List.mem_append_right _ h),
      List.count_eq_zero.2 fun h ↦ hl (List.mem_append_left _ h)]
  have hsame : (routes.toList.set f.index route).map (fun r ↦ r.count l) =
      routes.toList.map fun r ↦ r.count l := by
    refine List.ext_getElem (by simp) fun i _ _ ↦ ?_
    rw [List.getElem_map, List.getElem_map, List.getElem_set]
    split <;> rename_i h
    · subst h
      rw [hcount, ← hget, Array.getElem_toList]
    · rfl
  rw [Traffic.demand, Traffic.demand, demandOn_zip, demandOn_zip, Array.toList_setIfInBounds, hsame]

/-! ### Settled usage -/

theorem Crossings.ofTimes_succ (n : Nat) (times : FlowId → Nat) :
    ofTimes (n + 1) times = ofTimes n times ++ listed times [⟨n⟩] := by
  rw [ofTimes, Id.range_succ, listed, List.filterMap_append]
  rfl

omit [Scalar α] in
/-- The first flows with their routes, and then the next one. -/
theorem take_succ_zip {traffic : Traffic α} {routes : Array Route} {n : Nat}
    (hf : n < traffic.flows.size) (hr : n < routes.size) :
    (traffic.flows.toList.zip routes.toList).take (n + 1) =
      (traffic.flows.toList.zip routes.toList).take n ++ [(traffic.flows[n], routes[n])] := by
  rw [List.take_succ_eq_append_getElem (by simpa using ⟨hf, hr⟩), List.getElem_zip]
  rfl

/-- Going through the crossings by the first flows adds up the demand of these flows. -/
theorem foldlM_ofTimes {traffic : Traffic α} {routes : Array Route} (l : LinkId)
    (hsize : routes.size = traffic.flows.size) {n : Nat} (hn : n ≤ routes.size) :
    (Crossings.ofTimes n (RouteTable.times routes l)).foldlM (m := Attempt α)
        (fun sum (f, n) ↦ do return addTimes (← traffic.flow f).bandwidth n sum) 0 =
      .ok (demandOn l ((traffic.flows.toList.zip routes.toList).take n)) := by
  induction n with
  | zero => rfl
  | succ n ih =>
    have hlt : n < routes.size := hn
    have hlt' : n < traffic.flows.size := hsize ▸ hlt
    have htimes : RouteTable.times routes l ⟨n⟩ = routes[n].count l := by
      rw [RouteTable.times, Array.getElem?_eq_getElem hlt, Option.getD_some]
    have hflow : traffic.flow ⟨n⟩ = .ok traffic.flows[n] :=
      Attempt.entry_eq_ok_iff.2 (Array.getElem?_eq_getElem hlt')
    rw [Crossings.ofTimes_succ, List.foldlM_append, ih (Nat.le_of_lt hn), Attempt.ok_bind,
      take_succ_zip hlt' hlt, demandOn_concat]
    by_cases h0 : routes[n].count l = 0
    · rw [Crossings.listed_cons_of_zero (htimes.trans h0), h0]
      rfl
    · rw [Crossings.listed_cons_of_ne_zero (htimes ▸ h0), htimes, List.foldlM_cons]
      exact congrArg (fun x : Attempt α (Flow α) ↦ (x >>= _) >>= _) hflow

/-- **Settled usage is demand.** Going through the crossings of a link gives the same scalar as
following all routes. -/
theorem settledUsage_ofRoutes {traffic : Traffic α} {routes : Array Route} {links : Nat}
    {l : LinkId} (hsize : routes.size = traffic.flows.size) (hl : l.index < links) :
    (RouteTable.ofRoutes routes links).settledUsage traffic l = .ok (traffic.demand routes l) := by
  have hflows : ((RouteTable.ofRoutes routes links).flowsOn l : Attempt α Crossings) =
      .ok (Crossings.ofTimes routes.size (RouteTable.times routes l)) :=
    Attempt.entry_eq_ok_iff.2 (RouteTable.getElem?_index _ hl)
  rw [RouteTable.settledUsage, hflows, Attempt.ok_bind]
  refine (foldlM_ofTimes l hsize (Nat.le_refl _)).trans ?_
  rw [Traffic.demand, List.take_of_length_le (by simp)]

/-! ### Charging -/

namespace Network

/-- What charging a bandwidth once adds to the usage of a link. -/
def signed (how : Charge) (bandwidth : α) : α :=
  match how with
  | .add => bandwidth
  | .remove => -bandwidth

/-- Usages after a scalar was added to every link of a route, as often as the route takes it. -/
def charged (amount : α) (route : Route) (usage : Array α) : Array α :=
  usage.mapIdx fun i u ↦ addTimes amount (route.count ⟨i⟩) u

@[simp] theorem size_charged (amount : α) (route : Route) (usage : Array α) :
    (charged amount route usage).size = usage.size :=
  Array.size_mapIdx

theorem charged_nil (amount : α) (usage : Array α) : charged amount [] usage = usage :=
  Array.ext (by simp) fun i _ _ ↦ by simp [charged, addTimes]

theorem charged_cons (amount : α) {k : LinkId} (route : Route) {usage : Array α}
    (hk : k.index < usage.size) :
    charged amount route (usage.setIfInBounds k.index (usage[k.index] + amount)) =
      charged amount (k :: route) usage := by
  refine Array.ext (by simp) fun i hi _ ↦ ?_
  have hi' : i < usage.size := by simpa using hi
  simp only [charged, Array.getElem_mapIdx, Array.getElem_setIfInBounds hi', List.count_cons]
  rcases eq_or_ne k.index i with rfl | hki
  · simp [addTimes]
  · have hne : (k == (⟨i⟩ : LinkId)) = false := beq_eq_false_iff_ne.2 fun e ↦ hki (e ▸ rfl)
    simp [hki, hne]

end Network

/-- **Adding along a route** changes the usage of its links, and of no other link. -/
theorem addAlong_eq_ok (amount : α) {route : Route} {usage : Array α}
    (h : ∀ l ∈ route, l.index < usage.size) :
    addAlong amount route usage = .ok (Network.charged amount route usage) := by
  induction route generalizing usage with
  | nil => rw [addAlong, Network.charged_nil]
  | cons k route ih =>
    have hk : k.index < usage.size := h k List.mem_cons_self
    have hentry : (Attempt.entry usage k : Attempt α α) = .ok usage[k.index] :=
      Attempt.entry_eq_ok_iff.2 (Array.getElem?_eq_getElem hk)
    rw [addAlong, hentry, Attempt.ok_bind,
      ih (by simpa using fun l hl ↦ h l (List.mem_cons_of_mem _ hl)), Network.charged_cons]

/-- Nothing can be added along a route over a link that does not exist. -/
theorem addAlong_eq_fault (amount : α) {route : Route} {usage : Array α}
    (h : ∃ l ∈ route, usage.size ≤ l.index) :
    ∃ e, addAlong amount route usage = .error (.fault e) := by
  induction route generalizing usage with
  | nil => simp at h
  | cons k route ih =>
    rw [addAlong]
    rcases Nat.lt_or_ge k.index usage.size with hk | hk
    · obtain ⟨l, hl, hle⟩ := h
      have hl' : l ∈ route := (List.mem_cons.1 hl).resolve_left fun e ↦ by subst e; omega
      have hentry : (Attempt.entry usage k : Attempt α α) = .ok usage[k.index] :=
        Attempt.entry_eq_ok_iff.2 (Array.getElem?_eq_getElem hk)
      rw [hentry, Attempt.ok_bind]
      exact ih ⟨l, hl', by simpa using hle⟩
    · refine ⟨.missing .link k.index, ?_⟩
      rw [Attempt.entry, Array.getElem?_eq_none hk]
      rfl

namespace Network

omit [Scalar α] in
theorem usageOf_eq_ok {n : Network α} {l : LinkId} (hl : l.index < n.usage.size) :
    n.usageOf l = .ok n.usage[l.index] :=
  Attempt.entry_eq_ok_iff.2 (Array.getElem?_eq_getElem hl)

omit [Scalar α] in
theorem setUsage_eq_ok {n : Network α} {l : LinkId} (hl : l.index < n.usage.size) (u : α) :
    n.setUsage l u = .ok { n with usage := n.usage.setIfInBounds l.index u } := by
  rw [setUsage, usageOf_eq_ok hl]
  rfl

/-- Charging a network is adding to its usage. -/
theorem charge_eq_addAlong (how : Charge) (bandwidth : α) (route : Route) (n : Network α) :
    charge how bandwidth route n =
      (addAlong (signed how bandwidth) route n.usage).map fun usage ↦ { n with usage } := by
  induction route generalizing n with
  | nil => rfl
  | cons k route ih =>
    have hcons : charge how bandwidth (k :: route) n =
        n.usageOf k >>= fun u ↦ n.setUsage k (u + signed how bandwidth) >>=
          charge how bandwidth route := by
      cases how <;> rfl
    rw [hcons, addAlong]
    rcases Nat.lt_or_ge k.index n.usage.size with hk | hk
    · have hentry : (Attempt.entry n.usage k : Attempt α α) = .ok n.usage[k.index] :=
        usageOf_eq_ok hk
      rw [usageOf_eq_ok hk, hentry, Attempt.ok_bind, Attempt.ok_bind, setUsage_eq_ok hk,
        Attempt.ok_bind]
      exact ih _
    · rw [usageOf, Attempt.entry, Array.getElem?_eq_none hk]
      rfl

/-- **Charging a route** changes the usage of its links, and of no other link. -/
theorem charge_eq_ok (how : Charge) (bandwidth : α) {route : Route} {n : Network α}
    (h : ∀ l ∈ route, l.index < n.usage.size) :
    charge how bandwidth route n =
      .ok { n with usage := charged (signed how bandwidth) route n.usage } := by
  rw [charge_eq_addAlong, addAlong_eq_ok _ h]
  rfl

/-- A route over a link that does not exist cannot be charged. -/
theorem charge_eq_fault (how : Charge) (bandwidth : α) {route : Route} {n : Network α}
    (h : ∃ l ∈ route, n.usage.size ≤ l.index) :
    ∃ e, charge how bandwidth route n = .error (.fault e) := by
  obtain ⟨e, he⟩ := addAlong_eq_fault (signed how bandwidth) h
  exact ⟨e, by rw [charge_eq_addAlong, he]; rfl⟩

/-- What can be charged takes existing links only. -/
theorem lt_of_charge_eq_ok {how : Charge} {bandwidth : α} {route : Route} {n n' : Network α}
    (h : charge how bandwidth route n = .ok n') : ∀ l ∈ route, l.index < n.usage.size := by
  by_contra hover
  simp only [not_forall, Nat.not_lt] at hover
  obtain ⟨l, hl, hle⟩ := hover
  obtain ⟨e, he⟩ := charge_eq_fault how bandwidth ⟨l, hl, hle⟩
  rw [he] at h
  cases h

/-- A route is charged or there is a fault. -/
theorem neverFails_charge (how : Charge) (bandwidth : α) (route : Route) (n : Network α) :
    (charge how bandwidth route n).NeverFails := by
  by_cases h : ∀ l ∈ route, l.index < n.usage.size
  · rw [charge_eq_ok how bandwidth h]
    exact Attempt.neverFails_ok _
  · simp only [not_forall, Nat.not_lt] at h
    obtain ⟨l, hl, hle⟩ := h
    obtain ⟨e, he⟩ := charge_eq_fault how bandwidth ⟨l, hl, hle⟩
    rw [he]
    exact nofun

end Network

/-! ### Charging several flows -/

/-- A sum to which flows add their bandwidths, each as often as its route takes a link. -/
def addDemand (l : LinkId) (routed : List (Flow α × Route)) (sum : α) : α :=
  routed.foldl (fun sum e ↦ addTimes e.1.bandwidth (e.2.count l) sum) sum

theorem demandOn_eq_addDemand (l : LinkId) (routed : List (Flow α × Route)) :
    demandOn l routed = addDemand l routed 0 := by
  simp only [demandOn, addDemand, foldl_route_eq_addTimes]

namespace Network

/-- Usages after flows were charged for their routes, one flow after the other. -/
def chargedFor (routed : List (Flow α × Route)) (usage : Array α) : Array α :=
  usage.mapIdx fun i u ↦ addDemand ⟨i⟩ routed u

@[simp] theorem size_chargedFor (routed : List (Flow α × Route)) (usage : Array α) :
    (chargedFor routed usage).size = usage.size :=
  Array.size_mapIdx

theorem chargedFor_nil (usage : Array α) : chargedFor [] usage = usage :=
  Array.ext (by simp) fun i _ _ ↦ by simp [chargedFor, addDemand]

theorem chargedFor_cons (e : Flow α × Route) (routed : List (Flow α × Route)) (usage : Array α) :
    chargedFor (e :: routed) usage = chargedFor routed (charged e.1.bandwidth e.2 usage) :=
  Array.ext (by simp) fun i _ _ ↦ by simp [chargedFor, charged, addDemand]

theorem getElem?_chargedFor (routed : List (Flow α × Route)) (usage : Array α) (l : LinkId) :
    (chargedFor routed usage)[l.index]? = usage[l.index]?.map (addDemand l routed) := by
  rw [chargedFor, Array.getElem?_mapIdx]

/-- On unused links the usages are the demand of the flows. -/
theorem getElem?_chargedFor_replicate (routed : List (Flow α × Route)) {links : Nat} {l : LinkId}
    (hl : l.index < links) :
    (chargedFor routed (Array.replicate links 0))[l.index]? = some (demandOn l routed) := by
  rw [getElem?_chargedFor, Array.getElem?_replicate, if_pos hl, Option.map_some,
    demandOn_eq_addDemand]

/-- Charges flows for their routes, one flow after the other. -/
def chargeRoutes (routed : List (Flow α × Route)) (n : Network α) : Attempt α (Network α) :=
  routed.foldlM (fun n (flow, route) ↦ charge .add flow.bandwidth route n) n

/-- **Charging flows one after the other** adds to every link in the order of the flows. -/
theorem chargeRoutes_eq_ok {routed : List (Flow α × Route)} {n : Network α}
    (h : ∀ e ∈ routed, ∀ l ∈ e.2, l.index < n.usage.size) :
    chargeRoutes routed n = .ok { n with usage := chargedFor routed n.usage } := by
  induction routed generalizing n with
  | nil => rw [chargedFor_nil]; rfl
  | cons e routed ih =>
    obtain ⟨he, hrouted⟩ := List.forall_mem_cons.1 h
    have hcons : chargeRoutes (e :: routed) n =
        charge .add e.1.bandwidth e.2 n >>= chargeRoutes routed := rfl
    rw [hcons, charge_eq_ok .add e.1.bandwidth he, Attempt.ok_bind, ih (by simpa using hrouted),
      chargedFor_cons]
    rfl

end Network

/-- **Following all routes once** adds to every link in the order of the flows. -/
theorem foldlM_addAlong_eq_ok {routed : List (Flow α × Route)} {usage : Array α}
    (h : ∀ e ∈ routed, ∀ l ∈ e.2, l.index < usage.size) :
    routed.foldlM (m := Attempt α)
        (fun usage (flow, route) ↦ addAlong flow.bandwidth route usage) usage =
      .ok (Network.chargedFor routed usage) := by
  induction routed generalizing usage with
  | nil => rw [Network.chargedFor_nil]; rfl
  | cons e routed ih =>
    obtain ⟨he, hrouted⟩ := List.forall_mem_cons.1 h
    rw [Network.chargedFor_cons, ← ih (by simpa using hrouted)]
    exact congrArg (· >>= _) (addAlong_eq_ok e.1.bandwidth he)

end NetOnChip
