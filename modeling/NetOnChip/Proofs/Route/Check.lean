import NetOnChip.Proofs.Routing.Flow

/-!
# What the checks accept

The check of a route accepts walks between the routers of its flow, and nothing else
(`checkRoutes_eq_ok_iff`). It follows the links one by one and looks at both ends on its own, so the
induction goes over the links that are left, from wherever they start
(`walk_iff_checkChain`).

The check of the usages compares what every link carries with what is demanded of it
(`checkUsage_eq_ok_iff`).
-/

namespace NetOnChip

variable {α : Type}

/-! ### Routes -/

section Routes

variable {t : Topology α} {traffic : Traffic α} {p : Placement} {f : FlowId} {route : Route}
  {routes : Array Route} {source sink : RouterId}

theorem checkChain_eq_ok_iff {l k : LinkId} :
    checkChain t f (l :: k :: route) = .ok () ↔
      ∃ here next, t.link l = .ok here ∧ t.link k = .ok next ∧ here.sink = next.source ∧
        checkChain t f (k :: route) = .ok () := by
  simp only [checkChain, Attempt.bind_eq_ok_iff, Attempt.guard_eq_ok_iff]
  constructor
  · rintro ⟨here, hhere, next, hnext, hmeet, h⟩
    exact ⟨here, next, hhere, hnext, hmeet, h⟩
  · rintro ⟨here, next, hhere, hnext, hmeet, h⟩
    exact ⟨here, hhere, next, hnext, hmeet, h⟩

/-- A walk starts and ends where it should and has no gap in between. -/
theorem walk_iff_checkChain {l : LinkId} :
    t.Walk source (l :: route) sink ↔
      ∃ first last, t.link l = .ok first ∧
        t.link ((l :: route).getLast (List.cons_ne_nil l route)) = .ok last ∧
          first.source = source ∧ checkChain t f (l :: route) = .ok () ∧ last.sink = sink := by
  -- the chain is checked from its first link on, wherever that link starts
  induction route generalizing l source with
  | nil =>
    rw [Topology.walk_cons_iff]
    constructor
    · rintro ⟨link, hl, hsource, hnil⟩
      exact ⟨link, link, hl, hl, hsource, rfl, Topology.walk_nil_iff.1 hnil⟩
    · rintro ⟨first, last, hfirst, hlast, hsource, _, hsink⟩
      obtain rfl : first = last := Except.ok.inj (hfirst.symm.trans hlast)
      exact ⟨first, hfirst, hsource, Topology.walk_nil_iff.2 hsink⟩
  | cons k route ih =>
    rw [Topology.walk_cons_iff, checkChain_eq_ok_iff, List.getLast_cons (List.cons_ne_nil k route)]
    constructor
    · rintro ⟨link, hl, hsource, hroute⟩
      obtain ⟨next, last, hnext, hlast, hmeet, hchain, hsink⟩ := ih.1 hroute
      exact ⟨link, last, hl, hlast, hsource, ⟨link, next, hl, hnext, hmeet.symm, hchain⟩, hsink⟩
    · rintro ⟨first, last, hfirst, hlast, hsource, ⟨here, next, hhere, hnext, hmeet, hchain⟩, hsink⟩
      obtain rfl : first = here := Except.ok.inj (hfirst.symm.trans hhere)
      exact ⟨first, hfirst, hsource, ih.2 ⟨next, last, hnext, hlast, hmeet.symm, hchain, hsink⟩⟩

/-- **The check of a route** accepts walks, and nothing else. -/
theorem checkRouteBetween_eq_ok_iff :
    checkRouteBetween t f source sink route = .ok () ↔ t.Walk source route sink := by
  cases route with
  | nil =>
    show (if source = sink then (.ok () : Attempt α Unit) else _) = _ ↔ _
    rw [Attempt.guard_eq_ok_iff, Topology.walk_nil_iff]
    exact and_iff_left rfl
  | cons l route =>
    rw [checkRouteBetween]
    cases hover : (l :: route).find? fun k ↦ t.links.size ≤ k.index with
    | some k =>
      -- a link that does not exist is not on a walk either
      refine iff_of_false (fun h ↦ nomatch h) fun hwalk ↦ ?_
      have hk := List.find?_some hover
      have := hwalk.lt_links k (List.mem_of_find?_eq_some hover)
      simp only [decide_eq_true_eq] at hk
      omega
    | none =>
      rw [walk_iff_checkChain (f := f), List.getLast?_eq_some_getLast (List.cons_ne_nil l route)]
      simp only [List.head?_cons, Attempt.bind_eq_ok_iff, Attempt.guard_eq_ok_iff]
      constructor
      · rintro ⟨first, hfirst, hsource, _, hchain, last, hlast, hsink, _⟩
        exact ⟨first, last, hfirst, hlast, hsource, hchain, hsink⟩
      · rintro ⟨first, last, hfirst, hlast, hsource, hchain, hsink⟩
        exact ⟨first, hfirst, hsource, (), hchain, last, hlast, hsink, rfl⟩

/-- **The check of a route for a flow** accepts the routes that connect its blocks. -/
theorem checkRoute_eq_ok_iff :
    checkRoute t traffic p f route = .ok () ↔ Connects t traffic p f route := by
  simp only [checkRoute, Attempt.bind_eq_ok_iff, checkRouteBetween_eq_ok_iff]
  constructor
  · rintro ⟨flow, hflow, source, hsource, sink, hsink, hwalk⟩
    exact ⟨flow, source, sink, hflow, hsource, hsink, hwalk⟩
  · rintro ⟨flow, source, sink, hflow, hsource, hsink, hwalk⟩
    exact ⟨flow, hflow, source, hsource, sink, hsink, hwalk⟩

/-- **The check of all routes** accepts them if there is one for every flow and it connects the
blocks of that flow. -/
theorem checkRoutes_eq_ok_iff :
    checkRoutes t traffic routes p = .ok () ↔
      routes.size = traffic.flows.size ∧
        ∀ {f : FlowId} {route : Route}, routes[f.index]? = some route →
          Connects t traffic p f route := by
  rw [checkRoutes, Attempt.guard_eq_ok_iff, Attempt.forM_eq_ok_iff]
  refine and_congr_right fun _ ↦ ?_
  simp only [Attempt.bind_eq_ok_iff, Attempt.entry_eq_ok_iff, checkRoute_eq_ok_iff, Id.mem_range]
  constructor
  · intro h f route hroute
    obtain ⟨route', hroute', hconnects⟩ := h f (Array.getElem?_eq_some_iff.1 hroute).1
    rw [hroute, Option.some.injEq] at hroute'
    exact hroute' ▸ hconnects
  · intro h f hf
    have hroute := Array.getElem?_eq_getElem hf
    exact ⟨_, hroute, h hroute⟩

/-- Routes that passed take existing links. -/
theorem admissible_of_checkRoutes (h : checkRoutes t traffic routes p = .ok ()) :
    Admissible traffic t routes := by
  obtain ⟨hsize, hconnects⟩ := checkRoutes_eq_ok_iff.1 h
  exact ⟨hsize, fun hroute ↦ (hconnects hroute).lt_links⟩

end Routes

/-! ### Usages -/

section Usages

variable [Scalar α] {t : Topology α} {traffic : Traffic α} {routes : Array Route} {tolerance : α}

/-- The links that routes are expected to use carry what is demanded of them. -/
theorem expectedUsage_eq (h : Admissible traffic t routes) :
    expectedUsage t traffic routes =
      .ok ((Id.range t.links.size).map (traffic.demand routes)) := by
  rw [expectedUsage, foldlM_addAlong_eq_ok (by simpa using fun _ _ ↦ h.lt_links_of_mem),
    Attempt.ok_bind, Ledger.chargedFor_replicate, ← Ledger.toList_demands]
  rfl

/-- The usages pass if no difference is found to be beyond the tolerance. -/
theorem checkUsages_eq_ok_iff {compared : List (LinkId × α × α)} :
    checkUsages tolerance compared = .ok () ↔
      ∀ e ∈ compared, ¬ tolerance * Scalar.magnitude e.2.2 < Scalar.magnitude (e.2.1 - e.2.2) := by
  induction compared with
  | nil => exact iff_of_true rfl (by simp)
  | cons e compared ih =>
    obtain ⟨l, tracked, expected⟩ := e
    rw [checkUsages, List.forall_mem_cons]
    by_cases h : tolerance * Scalar.magnitude expected < Scalar.magnitude (tracked - expected)
    · rw [if_pos h]
      exact iff_of_false nofun fun hpass ↦ hpass.1 h
    · rw [if_neg h, ih]
      exact (and_iff_right h).symm

/-- The usages are compared link by link with what is demanded. -/
theorem mem_zip_demand_iff {usage : Array α} {links : Nat} {l : LinkId} {u demand : α} :
    (l, u, demand) ∈ (Id.range usage.size).zip
        (usage.toList.zip ((Id.range links).map (traffic.demand routes))) ↔
      l.index < links ∧ usage[l.index]? = some u ∧ traffic.demand routes l = demand := by
  simp only [List.mem_iff_getElem?, List.getElem?_zip_eq_some, List.getElem?_map,
    Option.map_eq_some_iff, Array.getElem?_toList, Id.getElem?_range_eq_some_iff]
  constructor
  · rintro ⟨i, ⟨rfl, _⟩, hu, _, ⟨rfl, hi⟩, hdemand⟩
    exact ⟨hi, hu, hdemand⟩
  · rintro ⟨hl, hu, hdemand⟩
    exact ⟨l.index, ⟨rfl, (Array.getElem?_eq_some_iff.1 hu).1⟩, hu, l, ⟨rfl, hl⟩, hdemand⟩

/-- **The check of the usages** compares what every link carries with what is demanded of it. -/
theorem checkUsage_eq_ok_iff {n : Network α} (h : Admissible traffic n.topology routes) :
    checkUsage n traffic routes tolerance = .ok () ↔
      ∀ {l : LinkId} {u : α}, l.index < n.topology.links.size → n.usageOf l = .ok u →
        ¬ tolerance * Scalar.magnitude (traffic.demand routes l) <
          Scalar.magnitude (u - traffic.demand routes l) := by
  rw [checkUsage, expectedUsage_eq h, Attempt.ok_bind, checkUsages_eq_ok_iff]
  constructor
  · intro hpass l u hl hu
    exact hpass (l, u, _) (mem_zip_demand_iff.2 ⟨hl, Attempt.entry_eq_ok_iff.1 hu, rfl⟩)
  · rintro hpass ⟨l, u, demand⟩ he
    obtain ⟨hl, hu, rfl⟩ := mem_zip_demand_iff.1 he
    exact hpass hl (Attempt.entry_eq_ok_iff.2 hu)

end Usages

end NetOnChip
