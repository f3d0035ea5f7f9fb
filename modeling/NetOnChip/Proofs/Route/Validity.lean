import NetOnChip.Proofs.Route.Check
import NetOnChip.Proofs.Tracker.Start

/-!
# Valid routes

What a route has to be is said here link by link, without the check and without an induction: a
route joins two routers if its links exist, the first one leaves the one router, each one starts
where the one before it ends, and the last one enters the other router (`Topology.Spans`). No link
is needed to stay. The check looks for these things in an order of its own, and it accepts the walks
(`checkRoutes_eq_ok_iff`), which are the same routes (`Topology.walk_iff_leads`): a walk takes its
first link and goes on from where that ends, and so does a chain of links that meet.

`checkRoutes_exact` is what the check of a table comes to. The flows are looked at one after the
other, so it fails at the lowest one whose route is not valid (`forM_range_eq_error_iff`). Nothing
is assumed of the topology or of the table.
-/

namespace NetOnChip

variable {α : Type}

namespace Topology

variable {t : Topology α} {source sink : RouterId} {l k : LinkId} {route : Route}

/-! ### Chains of links -/

/-- A link that starts at a router. -/
def Leaves (t : Topology α) (l : LinkId) (r : RouterId) : Prop :=
  ∃ link, t.links[l.index]? = some link ∧ link.source = r

/-- A link that ends at a router. -/
def Enters (t : Topology α) (l : LinkId) (r : RouterId) : Prop :=
  ∃ link, t.links[l.index]? = some link ∧ link.sink = r

/-- Links of which the second one starts where the first one ends. -/
def Meets (t : Topology α) (l k : LinkId) : Prop :=
  ∃ r, t.Enters l r ∧ t.Leaves k r

/-- A route with links that joins two routers. -/
structure Spans (t : Topology α) (source : RouterId) (route : Route) (sink : RouterId) : Prop where
  /-- The links exist. -/
  lt_links : ∀ l ∈ route, l.index < t.links.size
  /-- There is a first link, and it starts at the one router. -/
  leaves : ∃ first ∈ route.head?, t.Leaves first source
  /-- Each link starts where the one before it ends. -/
  chain : route.IsChain t.Meets
  /-- The last link ends at the other router. -/
  enters : ∃ last ∈ route.getLast?, t.Enters last sink

/-- A route that leads from one router to another: no link from a router to itself, or links that
join them. -/
def Leads (t : Topology α) (source : RouterId) (route : Route) (sink : RouterId) : Prop :=
  route = [] ∧ source = sink ∨ t.Spans source route sink

theorem Leaves.lt_links {r : RouterId} (h : t.Leaves l r) : l.index < t.links.size := by
  obtain ⟨link, hl, -⟩ := h
  exact (Array.getElem?_eq_some_iff.1 hl).1

theorem spans_singleton : t.Spans source [l] sink ↔ t.Leaves l source ∧ t.Enters l sink := by
  constructor
  · rintro ⟨-, ⟨_, ⟨⟩, hleaves⟩, -, ⟨_, ⟨⟩, henters⟩⟩
    exact ⟨hleaves, henters⟩
  · rintro ⟨hleaves, henters⟩
    exact ⟨by simpa using hleaves.lt_links, ⟨l, rfl, hleaves⟩, .singleton l, ⟨l, rfl, henters⟩⟩

/-- A chain of links is its first link, and then a chain from where that ends. -/
theorem spans_cons_cons :
    t.Spans source (l :: k :: route) sink ↔
      t.Leaves l source ∧ ∃ r, t.Enters l r ∧ t.Spans r (k :: route) sink := by
  constructor
  · rintro ⟨hlt, ⟨_, ⟨⟩, hleaves⟩, hchain, hlast⟩
    obtain ⟨⟨r, henters, hmeet⟩, hchain⟩ := List.isChain_cons_cons.1 hchain
    exact ⟨hleaves, r, henters, fun j hj ↦ hlt j (List.mem_cons_of_mem l hj), ⟨k, rfl, hmeet⟩,
      hchain, by rwa [List.getLast?_cons_cons] at hlast⟩
  · rintro ⟨hleaves, r, henters, hlt, ⟨_, ⟨⟩, hmeet⟩, hchain, hlast⟩
    exact ⟨List.forall_mem_cons.2 ⟨hleaves.lt_links, hlt⟩, ⟨l, rfl, hleaves⟩,
      List.isChain_cons_cons.2 ⟨⟨r, henters, hmeet⟩, hchain⟩, by rwa [List.getLast?_cons_cons]⟩

/-- So is a walk. -/
theorem walk_cons_iff_enters :
    t.Walk source (l :: route) sink ↔
      t.Leaves l source ∧ ∃ r, t.Enters l r ∧ t.Walk r route sink := by
  simp only [walk_cons_iff, Topology.link, Attempt.entry_eq_ok_iff]
  constructor
  · rintro ⟨link, hl, hsource, hwalk⟩
    exact ⟨⟨link, hl, hsource⟩, link.sink, ⟨link, hl, rfl⟩, hwalk⟩
  · rintro ⟨⟨link, hl, hsource⟩, _, ⟨link', hl', rfl⟩, hwalk⟩
    obtain rfl : link = link' := Option.some.inj (hl.symm.trans hl')
    exact ⟨link, hl, hsource, hwalk⟩

/-- **A walk with links** is a chain of links that joins its ends. -/
theorem walk_iff_spans : t.Walk source (l :: route) sink ↔ t.Spans source (l :: route) sink := by
  induction route generalizing l source with
  | nil =>
    rw [walk_cons_iff_enters, spans_singleton]
    simp only [walk_nil_iff, exists_eq_right]
  | cons k route ih =>
    rw [walk_cons_iff_enters, spans_cons_cons]
    simp only [ih]

/-- **A walk** is a route that leads from its source to its sink. -/
theorem walk_iff_leads : t.Walk source route sink ↔ t.Leads source route sink := by
  cases route with
  | nil =>
    rw [walk_nil_iff]
    refine ⟨fun h ↦ .inl ⟨rfl, h⟩, fun h ↦ h.elim And.right ?_⟩
    rintro ⟨-, ⟨_, ⟨⟩, -⟩, -, -⟩
  | cons l route => exact walk_iff_spans.trans (or_iff_right fun h ↦ List.cons_ne_nil _ _ h.1).symm

end Topology

/-! ### The routes of flows -/

section Routes

variable {t : Topology α} {traffic : Traffic α} {p : Placement} {f : FlowId} {route : Route}
  {routes : Array Route}

/-- A block that is placed on the tile of a router. -/
def OnRouter (t : Topology α) (p : Placement) (b : BlockId) (r : RouterId) : Prop :=
  ∃ tile, p.tile? b = some tile ∧ t.routerAt? tile = some r

theorem placedRouter_eq_ok_iff {b : BlockId} {r : RouterId} :
    placedRouter t p b = .ok r ↔ OnRouter t p b r := by
  rw [placedRouter, Placement.locate, OnRouter]
  cases htile : p.tile? b with
  | none => simp [Attempt.fail]
  | some tile => cases hr : t.routerAt? tile <;> simp [Attempt.fail, hr, pure, Except.pure]

/-- A route is valid for a flow if both blocks of the flow are on routers and the route leads from
the one to the other. -/
def Flow.Valid (flow : Flow α) (t : Topology α) (p : Placement) (route : Route) : Prop :=
  ∃ source sink, OnRouter t p flow.source source ∧ OnRouter t p flow.sink sink ∧
    t.Leads source route sink

/-- **The check of a route** accepts what is valid for the flow. -/
theorem checkRoute_eq_ok_iff_valid {flow : Flow α} (hflow : traffic.flow f = .ok flow) :
    checkRoute t traffic p f route = .ok () ↔ flow.Valid t p route := by
  rw [checkRoute_eq_ok_iff]
  constructor
  · rintro ⟨flow', source, sink, hflow', hsource, hsink, hwalk⟩
    obtain rfl : flow = flow' := Except.ok.inj (hflow.symm.trans hflow')
    exact ⟨source, sink, placedRouter_eq_ok_iff.1 hsource, placedRouter_eq_ok_iff.1 hsink,
      Topology.walk_iff_leads.1 hwalk⟩
  · rintro ⟨source, sink, hsource, hsink, hleads⟩
    exact ⟨flow, source, sink, hflow, placedRouter_eq_ok_iff.2 hsource,
      placedRouter_eq_ok_iff.2 hsink, Topology.walk_iff_leads.2 hleads⟩

/-- Checks of the first flows fail at the lowest one whose check does. -/
theorem forM_range_eq_error_iff {g : FlowId → Attempt α Unit} {n : Nat} {e : Failure α} :
    (Id.range n).forM g = .error e ↔
      ∃ f : FlowId, f.index < n ∧ g f = .error e ∧ ∀ f' : FlowId, f'.index < f.index →
        g f' = .ok () := by
  have hbefore : ∀ {before : List FlowId} {f : FlowId} {after : List FlowId},
      Id.range n = before ++ f :: after → ∀ f' : FlowId, f' ∈ before ↔ f'.index < f.index := by
    intro before f after hsplit f'
    have hascending := Crossings.ascending_range n
    rw [hsplit, Crossings.Ascending, List.pairwise_append, List.pairwise_cons] at hascending
    obtain ⟨-, ⟨hafter, -⟩, hbelow⟩ := hascending
    refine ⟨fun hf' ↦ hbelow f' hf' f List.mem_cons_self, fun hlt ↦ ?_⟩
    have hf : f.index < n := Id.mem_range.1 (hsplit ▸ List.mem_append_right _ List.mem_cons_self)
    have hmem : f' ∈ before ++ f :: after := hsplit ▸ Id.mem_range.2 (hlt.trans hf)
    rcases List.mem_append.1 hmem with hf' | hf'
    · exact hf'
    · rcases List.mem_cons.1 hf' with rfl | hf'
      · exact absurd hlt (Nat.lt_irrefl _)
      · exact absurd hlt (Nat.lt_asymm (hafter f' hf'))
  rw [Attempt.forM_eq_error_iff]
  constructor
  · rintro ⟨before, f, after, hsplit, hpass, hfail⟩
    exact ⟨f, Id.mem_range.1 (hsplit ▸ List.mem_append_right _ List.mem_cons_self), hfail,
      fun f' hf' ↦ hpass f' ((hbefore hsplit f').2 hf')⟩
  · rintro ⟨f, hf, hfail, hpass⟩
    obtain ⟨before, after, hsplit⟩ := List.append_of_mem (Id.mem_range.2 hf)
    exact ⟨before, f, after, hsplit, fun f' hf' ↦ hpass f' ((hbefore hsplit f').1 hf'), hfail⟩

/-- If there is one route for every flow, then the check of a row is that of the flow's route. -/
theorem exists_row (hsize : routes.size = traffic.flows.size) (hf : f.index < traffic.flows.size) :
    ∃ flow route, traffic.flow f = .ok flow ∧ routes[f.index]? = some route ∧
      (Attempt.entry routes f >>= checkRoute t traffic p f) = checkRoute t traffic p f route := by
  have hroute := Array.getElem?_eq_getElem (hsize ▸ hf : f.index < routes.size)
  refine ⟨_, _, Attempt.entry_eq_ok_iff.2 (Array.getElem?_eq_getElem hf), hroute, ?_⟩
  rw [Attempt.entry_eq_ok_iff.2 hroute, Attempt.ok_bind]

/-- **The check of all routes** accepts exactly the valid tables. If there is one route for every
flow, then it fails at the lowest flow whose route is not valid, in the way in which the check of
that flow fails on its own. -/
theorem checkRoutes_exact (t : Topology α) (traffic : Traffic α) (routes : Array Route)
    (p : Placement) :
    (checkRoutes t traffic routes p = .ok () ↔
      routes.size = traffic.flows.size ∧ ∀ (f : FlowId) (flow : Flow α),
        traffic.flow f = .ok flow → ∃ route, routes[f.index]? = some route ∧
          flow.Valid t p route) ∧
    (routes.size = traffic.flows.size → ∀ e, checkRoutes t traffic routes p = .error e ↔
      ∃ (f : FlowId) (flow : Flow α) (route : Route), traffic.flow f = .ok flow ∧
        routes[f.index]? = some route ∧ ¬ flow.Valid t p route ∧
        checkRoute t traffic p f route = .error e ∧
        ∀ (f' : FlowId) (flow' : Flow α) (route' : Route), f'.index < f.index →
          traffic.flow f' = .ok flow' → routes[f'.index]? = some route' →
            flow'.Valid t p route') ∧
    (routes.size ≠ traffic.flows.size → checkRoutes t traffic routes p =
      Attempt.fail (.invalidRoute ⟨min routes.size traffic.flows.size⟩
        (.wrongCount routes.size traffic.flows.size))) := by
  refine ⟨?_, fun hsize e ↦ ?_, fun hsize ↦ if_neg hsize⟩
  · rw [checkRoutes, Attempt.guard_eq_ok_iff, Attempt.forM_eq_ok_iff]
    refine and_congr_right fun hsize ↦ ⟨fun h f flow hflow ↦ ?_, fun h f hf ↦ ?_⟩
    · have hf := (Array.getElem?_eq_some_iff.1 (Attempt.entry_eq_ok_iff.1 hflow)).1
      obtain ⟨_, route, -, hroute, hrow⟩ := exists_row (t := t) (p := p) hsize hf
      have hpass := h f (Id.mem_range.2 (hsize ▸ hf))
      exact ⟨route, hroute, (checkRoute_eq_ok_iff_valid hflow).1 (hrow.symm.trans hpass)⟩
    · obtain ⟨flow, route, hflow, hroute, hrow⟩ :=
        exists_row (t := t) (p := p) hsize (hsize ▸ Id.mem_range.1 hf)
      obtain ⟨route', hroute', hvalid⟩ := h f flow hflow
      obtain rfl : route = route' := Option.some.inj (hroute.symm.trans hroute')
      exact hrow.trans ((checkRoute_eq_ok_iff_valid hflow).2 hvalid)
  · rw [checkRoutes, if_pos hsize, forM_range_eq_error_iff]
    constructor
    · rintro ⟨f, hf, hfail, hpass⟩
      obtain ⟨flow, route, hflow, hroute, hrow⟩ := exists_row (t := t) (p := p) hsize (hsize ▸ hf)
      have hfail' : checkRoute t traffic p f route = .error e := hrow.symm.trans hfail
      refine ⟨f, flow, route, hflow, hroute, fun hvalid ↦ ?_, hfail', ?_⟩
      · cases hfail'.symm.trans ((checkRoute_eq_ok_iff_valid hflow).2 hvalid)
      · intro f' flow' route' hlt hflow' hroute'
        rw [← checkRoute_eq_ok_iff_valid hflow', ← hpass f' hlt, Attempt.entry_eq_ok_iff.2 hroute']
        rfl
    · rintro ⟨f, flow, route, hflow, hroute, -, hfail, hbefore⟩
      have hf := (Array.getElem?_eq_some_iff.1 hroute).1
      refine ⟨f, hf, ?_, fun f' hlt ↦ ?_⟩
      · rw [Attempt.entry_eq_ok_iff.2 hroute]
        exact hfail
      · obtain ⟨flow', route', hflow', hroute', hrow⟩ :=
          exists_row (t := t) (p := p) (f := f') hsize (hsize ▸ hlt.trans hf)
        exact hrow.trans
          ((checkRoute_eq_ok_iff_valid hflow').2 (hbefore f' flow' route' hlt hflow' hroute'))

/-- On a row of three routers: a table is accepted, so its routes are valid, and one with a link
that does not exist is not, so one of its routes is not. -/
theorem checkRoutes_exact_line :
    (∀ (f : FlowId) (flow : Flow Exact), Line.traffic.flow f = .ok flow →
      ∃ route, (#[[⟨0⟩], [⟨1⟩]] : Array Route)[f.index]? = some route ∧
        flow.Valid Line.topology (Line.placed 1) route) ∧
    ∃ (f : FlowId) (flow : Flow Exact) (route : Route), Line.traffic.flow f = .ok flow ∧
      (#[[⟨0⟩], [⟨5⟩]] : Array Route)[f.index]? = some route ∧
      ¬ flow.Valid Line.topology (Line.placed 1) route ∧
      checkRoute Line.topology Line.traffic (Line.placed 1) f route =
        Attempt.fail (.invalidRoute ⟨1⟩ (.noSuchLink ⟨5⟩)) := by
  have hpass : checkRoutes Line.topology Line.traffic #[[⟨0⟩], [⟨1⟩]] (Line.placed 1) = .ok () := by
    decide +kernel
  have hfail : checkRoutes Line.topology Line.traffic #[[⟨0⟩], [⟨5⟩]] (Line.placed 1) =
      Attempt.fail (.invalidRoute ⟨1⟩ (.noSuchLink ⟨5⟩)) := by
    decide +kernel
  obtain ⟨-, hvalid⟩ := (checkRoutes_exact _ _ _ _).1.1 hpass
  obtain ⟨f, flow, route, hflow, hroute, hinvalid, hown, -⟩ :=
    ((checkRoutes_exact _ _ _ _).2.1 rfl _).1 hfail
  exact ⟨hvalid, f, flow, route, hflow, hroute, hinvalid, hown⟩

end Routes

end NetOnChip
