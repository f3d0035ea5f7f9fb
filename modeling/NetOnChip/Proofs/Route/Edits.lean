import NetOnChip.Proofs.Route.Check
import NetOnChip.Proofs.Tracker.Start

/-!
# Tables after any edits

The routes of a table are stored and taken out one at a time. An `Edit` is one such change, and
`edits` makes several of them in a row.

* `edits_ofRoutes` is what a run of edits comes to: nothing else than the same changes to the routes
  (`edited`), with the crossings of the routes that result.
* `crossings_of_edits` reads off what the table then answers. The crossings of a link are those of
  the present routes, and tables with the same routes are the same, whatever was stored meanwhile.
* `usages_agree` compares three ways to the usage of a link: following all routes once, going
  through the crossings of the link, and charging the routes to unused links. They agree for
  arbitrary scalars, because they make the same additions in the same order.
-/

namespace NetOnChip

variable {α : Type}

namespace RouteTable

/-! ### Edits -/

/-- A change of one route of a table. -/
inductive Edit where
  /-- A route is stored for a flow. -/
  | replace (f : FlowId) (route : Route)
  /-- The route of a flow is taken out. -/
  | take (f : FlowId)
  deriving DecidableEq, Repr

namespace Edit

/-- The flow whose route is changed. -/
def flow : Edit → FlowId
  | replace f _ => f
  | take f => f

/-- The route that the flow has afterwards. -/
def route : Edit → Route
  | replace _ route => route
  | take _ => []

/-- The flow of an edit and the links of its route exist. -/
structure Within (flows links : Nat) (e : Edit) : Prop where
  /-- The flow exists. -/
  lt_flows : e.flow.index < flows
  /-- The links exist. -/
  lt_links : ∀ l ∈ e.route, l.index < links

instance (flows links : Nat) (e : Edit) : Decidable (e.Within flows links) :=
  decidable_of_iff (e.flow.index < flows ∧ ∀ l ∈ e.route, l.index < links)
    ⟨fun h ↦ ⟨h.1, h.2⟩, fun h ↦ ⟨h.lt_flows, h.lt_links⟩⟩

end Edit

/-- Makes an edit and gives back the route that was stored before. -/
def edit (t : RouteTable) : Edit → Attempt α (Route × RouteTable)
  | .replace f route => t.replace f route
  | .take f => t.take f

/-- Makes edits, one after the other. -/
def edits (es : List Edit) (t : RouteTable) : Attempt α RouteTable :=
  es.foldlM (fun t e ↦ do return (← t.edit e).2) t

/-- Routes after some edits. -/
def edited (es : List Edit) (routes : Array Route) : Array Route :=
  es.foldl (fun routes e ↦ routes.setIfInBounds e.flow.index e.route) routes

variable {routes : Array Route} {flows links : Nat} {e : Edit} {es : List Edit}

/-- **One edit** changes one route, and gives back the one that was there before. -/
theorem edit_ofRoutes (he : e.Within routes.size links) (h : Over links routes) :
    ∃ old, routes[e.flow.index]? = some old ∧
      ((ofRoutes routes links).edit e : Attempt α (Route × RouteTable)) =
        .ok (old, ofRoutes (routes.setIfInBounds e.flow.index e.route) links) := by
  have hold := Array.getElem?_eq_getElem he.lt_flows
  have hedit : ((ofRoutes routes links).edit e : Attempt α (Route × RouteTable)) =
      (ofRoutes routes links).replace e.flow e.route := by
    cases e <;> rfl
  exact ⟨_, hold, hedit.trans (replace_ofRoutes hold (h hold) he.lt_links)⟩

/-- **A run of edits** comes to the same changes of the routes. -/
theorem edits_ofRoutes (hes : ∀ e ∈ es, e.Within routes.size links) (h : Over links routes) :
    (edits es (ofRoutes routes links) : Attempt α RouteTable) =
        .ok (ofRoutes (edited es routes) links) ∧
      (edited es routes).size = routes.size ∧ Over links (edited es routes) := by
  induction es generalizing routes with
  | nil => exact ⟨rfl, rfl, h⟩
  | cons e es ih =>
    obtain ⟨he, hes⟩ := List.forall_mem_cons.1 hes
    obtain ⟨old, _, hedit⟩ := edit_ofRoutes (α := α) he h
    have hes' : ∀ e' ∈ es, e'.Within (routes.setIfInBounds e.flow.index e.route).size links := by
      simpa using hes
    obtain ⟨hrun, hsize, hover⟩ := ih hes' (h.set e.flow he.lt_links)
    rw [edits, List.foldlM_cons, hedit]
    exact ⟨hrun, hsize.trans Array.size_setIfInBounds, hover⟩

/-- A run of edits of the empty table ends, in the table of some routes over existing links. -/
theorem edits_empty (hes : ∀ e ∈ es, e.Within flows links) :
    ∃ routes, routes.size = flows ∧ Over links routes ∧
      (edits es (empty flows links) : Attempt α RouteTable) = .ok (ofRoutes routes links) := by
  have hes' : ∀ e ∈ es, e.Within (Array.replicate flows ([] : Route)).size links := by
    simpa using hes
  obtain ⟨hrun, hsize, hover⟩ := edits_ofRoutes (α := α) hes' (over_replicate flows links)
  rw [empty_eq_ofRoutes]
  exact ⟨_, by simpa using hsize, hover, hrun⟩

/-! ### What the table answers -/

theorem route_ofRoutes {f : FlowId} {route : Route} :
    ((ofRoutes routes links).route f : Attempt α Route) = .ok route ↔
      routes[f.index]? = some route :=
  Attempt.entry_eq_ok_iff

theorem flowsOn_ofRoutes {l : LinkId} (hl : l.index < links) :
    ((ofRoutes routes links).flowsOn l : Attempt α Crossings) =
      .ok (Crossings.ofTimes routes.size (times routes l)) :=
  Attempt.entry_eq_ok_iff.2 (getElem?_index _ hl)

/-- **The crossings of a table.** After any edits of the empty table, every link lists the flows
whose present route takes it, lowest first, each with the number of times that it does; a further
edit gives back the route that it replaces and leaves all other routes alone; and a table that came
about otherwise is the same if and only if it has the same routes. -/
theorem crossings_of_edits (hes : ∀ e ∈ es, e.Within flows links) :
    ∃ t : RouteTable, (edits es (empty flows links) : Attempt α RouteTable) = .ok t ∧
      (∀ l : LinkId, l.index < links →
        ∃ c : Crossings, (t.flowsOn l : Attempt α Crossings) = .ok c ∧
          Crossings.Ascending (c.map Prod.fst) ∧
          ∀ f n, (f, n) ∈ c ↔
            ∃ route, (t.route f : Attempt α Route) = .ok route ∧ l ∈ route ∧ n = route.count l) ∧
      (∀ e : Edit, e.Within flows links →
        ∃ old t', (t.edit e : Attempt α (Route × RouteTable)) = .ok (old, t') ∧
          (t.route e.flow : Attempt α Route) = .ok old ∧
          (t'.route e.flow : Attempt α Route) = .ok e.route ∧
          ∀ g : FlowId, g ≠ e.flow → (t'.route g : Attempt α Route) = t.route g) ∧
      ∀ (es' : List Edit) (t' : RouteTable), (∀ e ∈ es', e.Within flows links) →
        (edits es' (empty flows links) : Attempt α RouteTable) = .ok t' →
          (t = t' ↔ t.routes = t'.routes) := by
  obtain ⟨routes, hsize, hover, hrun⟩ := edits_empty (α := α) hes
  refine ⟨_, hrun, fun l hl ↦ ?_, fun e he ↦ ?_, fun es' t' hes' hrun' ↦ ?_⟩
  · refine ⟨_, flowsOn_ofRoutes hl, Crossings.ascending_ofTimes .., fun f n ↦ ?_⟩
    rw [Crossings.mem_ofTimes]
    constructor
    · rintro ⟨hf, hn, rfl⟩
      have hroute := Array.getElem?_eq_getElem hf
      have htimes : times routes l f = routes[f.index].count l := by
        rw [times, hroute, Option.getD_some]
      exact ⟨_, route_ofRoutes.2 hroute, List.count_pos_iff.1 (htimes ▸ hn), htimes⟩
    · rintro ⟨route, hroute, hl, rfl⟩
      have hroute := route_ofRoutes.1 hroute
      have htimes : times routes l f = route.count l := by
        rw [times, hroute, Option.getD_some]
      exact ⟨(Array.getElem?_eq_some_iff.1 hroute).1, List.count_pos_iff.2 hl, htimes⟩
  · rw [← hsize] at he
    obtain ⟨old, hold, hedit⟩ := edit_ofRoutes (α := α) he hover
    refine ⟨old, _, hedit, route_ofRoutes.2 hold, route_ofRoutes.2 ?_, fun g hg ↦ ?_⟩
    · exact Array.getElem?_setIfInBounds_self_of_lt he.lt_flows
    · have hne : e.flow.index ≠ g.index := fun h ↦ hg (Id.ext h.symm)
      simp only [route, Attempt.entry, routes_ofRoutes, Array.getElem?_setIfInBounds_ne hne]
  · obtain ⟨routes', _, _, hrun''⟩ := edits_empty (α := α) hes'
    obtain rfl : ofRoutes routes' links = t' := Except.ok.inj (hrun''.symm.trans hrun')
    refine ⟨congrArg RouteTable.routes, fun h ↦ ?_⟩
    rw [routes_ofRoutes, routes_ofRoutes] at h
    rw [h]

/-- A route that takes a link twice is taken out and stored again, and the table is the same as if
only the last routes had been stored. -/
theorem crossings_of_edits_back :
    ∃ t : RouteTable,
      (edits [.replace ⟨1⟩ [⟨0⟩, ⟨2⟩, ⟨0⟩], .replace ⟨0⟩ [⟨2⟩], .take ⟨1⟩, .replace ⟨1⟩ [⟨0⟩, ⟨0⟩]]
        (empty 2 3) : Attempt Exact RouteTable) = .ok t ∧
      (∃ c : Crossings, (t.flowsOn ⟨0⟩ : Attempt Exact Crossings) = .ok c ∧ (⟨1⟩, 2) ∈ c) ∧
      (edits [.replace ⟨0⟩ [⟨2⟩], .replace ⟨1⟩ [⟨0⟩, ⟨0⟩]] (empty 2 3) : Attempt Exact RouteTable) =
        .ok t := by
  obtain ⟨t, ht, hcrossings, _, hsame⟩ := crossings_of_edits (α := Exact)
    (show ∀ e ∈ [Edit.replace ⟨1⟩ [⟨0⟩, ⟨2⟩, ⟨0⟩], .replace ⟨0⟩ [⟨2⟩], .take ⟨1⟩,
      .replace ⟨1⟩ [⟨0⟩, ⟨0⟩]], e.Within 2 3 by decide)
  have hroutes : t.routes = #[[⟨2⟩], [⟨0⟩, ⟨0⟩]] := by
    rw [← Except.ok.inj ht]
    rfl
  obtain ⟨c, hc, _, hmem⟩ := hcrossings ⟨0⟩ (by decide)
  refine ⟨t, ht, ⟨c, hc, (hmem ⟨1⟩ 2).2 ⟨[⟨0⟩, ⟨0⟩], ?_, by decide, by decide⟩⟩, ?_⟩
  · rw [route, hroutes]
    rfl
  · rw [(hsame [.replace ⟨0⟩ [⟨2⟩], .replace ⟨1⟩ [⟨0⟩, ⟨0⟩]] _ (by decide) rfl).2 hroutes]
    rfl

end RouteTable

/-! ### Three ways to the usage of a link -/

section Usages

variable [Scalar α] {topology : Topology α} {traffic : Traffic α} {es : List RouteTable.Edit}

/-- **Three ways to the usage of a link.** After any edits of the empty table, following all routes
once, going through the crossings of the link, and charging the routes to unused links one flow
after the other all come to the same scalar. -/
theorem RouteTable.usages_agree
    (hes : ∀ e ∈ es, e.Within traffic.flows.size topology.links.size) :
    ∃ t expected n,
      (edits es (empty traffic.flows.size topology.links.size) : Attempt α RouteTable) = .ok t ∧
        expectedUsage topology traffic t.routes = .ok expected ∧
        Network.chargeRoutes (traffic.flows.toList.zip t.routes.toList) (.ofTopology topology) =
          .ok n ∧
        ∀ l : LinkId, l.index < topology.links.size →
          ∃ u, expected[l.index]? = some u ∧ t.settledUsage traffic l = .ok u ∧
            n.usageOf l = .ok u := by
  obtain ⟨routes, hsize, hover, hrun⟩ := edits_empty (α := α) hes
  have hadm : Admissible traffic topology routes := ⟨hsize, hover⟩
  have hlinks : ∀ e ∈ traffic.flows.toList.zip routes.toList,
      ∀ l ∈ e.2, l.index < (Network.ofTopology topology).usage.size := by
    simpa [Network.ofTopology] using fun _ _ ↦ hadm.lt_links_of_mem
  have hcharge := Network.chargeRoutes_eq_ok hlinks
  refine ⟨_, _, _, hrun, expectedUsage_eq hadm, hcharge, fun l hl ↦ ?_⟩
  refine ⟨traffic.demand routes l, ?_, settledUsage_ofRoutes hsize hl, ?_⟩
  · simp [Id.range, hl]
  · exact Attempt.entry_eq_ok_iff.2 (Network.getElem?_chargedFor_replicate _ hl)

/-- On a row of three routers: one flow takes the first link twice, and the other one takes it in
between. -/
theorem RouteTable.usages_agree_line :
    ∃ t expected n,
      (edits [.replace ⟨0⟩ [⟨0⟩, ⟨2⟩, ⟨0⟩], .replace ⟨1⟩ [⟨0⟩, ⟨1⟩]]
        (empty Line.traffic.flows.size Line.topology.links.size) : Attempt Exact RouteTable) =
          .ok t ∧
        expectedUsage Line.topology Line.traffic t.routes = .ok expected ∧
        Network.chargeRoutes (Line.traffic.flows.toList.zip t.routes.toList)
          (.ofTopology Line.topology) = .ok n ∧
        ∃ u, expected[0]? = some u ∧ t.settledUsage Line.traffic ⟨0⟩ = .ok u ∧
          n.usageOf ⟨0⟩ = .ok u := by
  obtain ⟨t, expected, n, ht, hexpected, hn, husages⟩ :=
    RouteTable.usages_agree
      (show ∀ e ∈ [RouteTable.Edit.replace ⟨0⟩ [⟨0⟩, ⟨2⟩, ⟨0⟩], .replace ⟨1⟩ [⟨0⟩, ⟨1⟩]],
        e.Within Line.traffic.flows.size Line.topology.links.size by decide)
  exact ⟨t, expected, n, ht, hexpected, hn, husages ⟨0⟩ (by decide)⟩

end Usages

end NetOnChip
