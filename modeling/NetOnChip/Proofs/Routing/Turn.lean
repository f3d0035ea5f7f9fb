import NetOnChip.Proofs.Routing.DimensionOrder
import NetOnChip.Proofs.Topology.Lookup

/-!
# The one turn of a dimension-ordered route

Which hop a dimension-ordered route takes at a router depends on the tile of the router, on the tile
of the sink and on the links that leave the router, and on nothing that the route did before
(`Choice`). So a route is *guided* by the tile of the sink, hop by hop (`Guided`), and everything
here is proved by induction over its hops.

* Outside the column of the sink all hops stay in their row, and once a route is in that column it
  stays there. That is why it turns at most once (`route_turns_once`). The nearest router straight
  ahead may lie beyond the column of the sink, so a route may change its direction before it turns.
* A hop leads towards the sink in its dimension, with one exception: the route leaves a router that
  shares the tile of the sink on another layer, and it does so downwards (`route_headings`). In a
  network with one layer there is no such router.

Neither needs a closed topology: a route that is found has come by existing routers only.
-/

namespace NetOnChip

namespace DimensionOrder

variable {α : Type} {t : Topology α}

/-! ### Directions -/

section Directions

variable {place target next : Tile}

/-- A hop keeps the row outside the column of the target, and it keeps the column in it. -/
theorem ahead_cases (h : isAhead (heading place target) place next = true) :
    (place.x ≠ target.x ∧ next.y = place.y ∧ place.x ≠ next.x) ∨
      (place.x = target.x ∧ next.x = place.x ∧ place.y ≠ next.y) := by
  unfold heading at h
  split_ifs at h with hright hleft hup <;>
    simp only [isAhead, Bool.and_eq_true, decide_eq_true_eq] at h <;> grind

/-- The direction of a hop is that of the target, except that it is down in the row of the target
as well. -/
theorem ahead_iff (h : isAhead (heading place target) place next = true) :
    (place.x < next.x ↔ place.x < target.x) ∧ (next.x < place.x ↔ target.x < place.x) ∧
      (place.y < next.y ↔ place.x = target.x ∧ place.y < target.y) ∧
      (next.y < place.y ↔ place.x = target.x ∧ target.y ≤ place.y) := by
  unfold heading at h
  split_ifs at h with hright hleft hup <;>
    simp only [isAhead, Bool.and_eq_true, decide_eq_true_eq] at h <;> grind

end Directions

/-! ### The nearest hop -/

/-- The hops before the nearest one lead farther, and those after it lead at least as far. -/
theorem split_of_nearest? {here : Tile} {hops : List Hop} {h : Hop}
    (hnearest : nearest? here hops = some h) :
    ∃ before after, hops = before ++ h :: after ∧
      (∀ g ∈ before, h.tile.distance here < g.tile.distance here) ∧
      ∀ g ∈ after, h.tile.distance here ≤ g.tile.distance here := by
  induction hops generalizing h with
  | nil => cases hnearest
  | cons g hops ih =>
    rw [nearest?] at hnearest
    split at hnearest
    · rename_i hnone
      cases hnearest
      exact ⟨[], hops, rfl, List.forall_mem_nil _, by simp [nearest?_eq_none_iff.1 hnone]⟩
    · rename_i f hf
      obtain ⟨before, after, rfl, hbefore, hafter⟩ := ih hf
      split at hnearest <;> rename_i hlt <;> cases hnearest
      · exact ⟨g :: before, after, rfl, List.forall_mem_cons.2 ⟨hlt, hbefore⟩, hafter⟩
      · -- the nearest of the others is no nearer than the first hop, so none of them is
        have hle := Nat.le_of_not_lt hlt
        refine ⟨[], _, rfl, List.forall_mem_nil _, List.forall_mem_append.2 ⟨fun k hk ↦ ?_,
          List.forall_mem_cons.2 ⟨hle, fun k hk ↦ Nat.le_trans hle (hafter k hk)⟩⟩⟩
        exact Nat.le_trans hle (Nat.le_of_lt (hbefore k hk))

/-- The hops that are found at a router follow the links that leave it, in the order of these. -/
theorem of_hops_eq_ok {here : RouterId} {links : List LinkId} {hs : List Hop}
    (hlinks : ∀ l ∈ links, t.leaves here l = true) (h : hops t links = .ok hs) :
    hs.map (·.link) = links ∧ ∀ g ∈ hs, g.Leaves t here := by
  induction links generalizing hs with
  | nil =>
    cases h
    exact ⟨rfl, List.forall_mem_nil _⟩
  | cons l links ih =>
    obtain ⟨hl, hlinks⟩ := List.forall_mem_cons.1 hlinks
    obtain ⟨g, hg, h⟩ := Attempt.bind_eq_ok_iff.1 h
    obtain ⟨hs, hhs, h⟩ := Attempt.bind_eq_ok_iff.1 h
    cases h
    obtain ⟨link, hlink, hg⟩ := Attempt.bind_eq_ok_iff.1 hg
    obtain ⟨next, hnext, hg⟩ := Attempt.bind_eq_ok_iff.1 hg
    cases hg
    have hlink' : t.links[l.index]? = some link := Attempt.entry_eq_ok_iff.1 hlink
    obtain ⟨_, hfound, hsource⟩ := Topology.leaves_iff.1 hl
    obtain rfl := Option.some.inj (hlink'.symm.trans hfound)
    obtain ⟨hmap, hleaves⟩ := ih hlinks hhs
    exact ⟨by rw [List.map_cons, hmap], List.forall_mem_cons.2
      ⟨⟨link, next, hlink', hsource, rfl, Attempt.entry_eq_ok_iff.1 hnext, rfl⟩, hleaves⟩⟩

/-- Only one hop leads over a link. -/
theorem Hop.Leaves.eq_of_link_eq {here : RouterId} {g h : Hop} (hg : g.Leaves t here)
    (hh : h.Leaves t here) (hlink : g.link = h.link) : g = h := by
  obtain ⟨link, next, hl, -, hsink, hnext, htile⟩ := hg
  obtain ⟨link', next', hl', -, hsink', hnext', htile'⟩ := hh
  obtain rfl : link = link' := Option.some.inj (hl.symm.trans (hlink ▸ hl'))
  obtain ⟨gl, gn, gt⟩ := g
  obtain ⟨hl, hn, ht⟩ := h
  simp only at *
  subst hlink hsink
  subst hsink'
  obtain rfl : next = next' := Option.some.inj (hnext.symm.trans hnext')
  rw [htile, htile']

/-- The hop that is taken at a router on a tile, on the way to a target. -/
structure Choice (t : Topology α) (target : Tile) (here : RouterId) (place : Tile) (h : Hop) :
    Prop where
  /-- The router is on the tile. -/
  router : ∃ r, t.routers[here.index]? = some r ∧ r.tile = place
  /-- The hop leads over a link that leaves the router. -/
  leaves : h.Leaves t here
  /-- It leads straight ahead, in the direction to take from the tile. -/
  ahead : isAhead (heading place target) place h.tile = true
  /-- No other such hop leads to a nearer tile, and those that lead to equally near ones follow
  links that were added later. -/
  nearest : ∀ {g : Hop}, g.Leaves t here → isAhead (heading place target) place g.tile = true →
    h.tile.distance place < g.tile.distance place ∨
      h.tile.distance place = g.tile.distance place ∧ h.link.index ≤ g.link.index

/-- **The chosen hop** is a nearest one straight ahead, over the link that was added first. -/
theorem choice_of_chosen (hw : t.WellFormed) {here : RouterId} {router target : Router α}
    {links : List LinkId} {options : List Hop} {h : Hop}
    (hrouter : t.routers[here.index]? = some router) (hlinks : t.outgoing here = .ok links)
    (hoptions : hops t links = .ok options) (hchosen : chosen router target options = some h) :
    Choice t target.tile here router.tile h := by
  obtain ⟨hhere, -⟩ := Array.getElem?_eq_some_iff.1 hrouter
  obtain ⟨_, hlinks', hascending, hmem⟩ := hw.exists_outgoing hhere
  obtain rfl := Except.ok.inj (hlinks.symm.trans hlinks')
  have hleave : ∀ l ∈ links, t.leaves here l = true := by
    intro l hl
    obtain ⟨link, hlink, hsource⟩ := (hmem l).1 hl
    exact Topology.leaves_iff.2 ⟨link, Attempt.entry_eq_ok_iff.1 hlink, hsource⟩
  obtain ⟨rfl, hleaves⟩ := of_hops_eq_ok hleave hoptions
  have hh := mem_of_nearest? hchosen
  refine ⟨⟨router, hrouter, rfl⟩, hleaves h (mem_of_chosen hchosen), (List.mem_filter.1 hh).2,
    fun {g} hg hahead ↦ ?_⟩
  -- every hop that leaves the router is one of the options
  have hgoption : g ∈ options := by
    obtain ⟨link, next, hlink, hsource, -⟩ := id hg
    have hglink : g.link ∈ options.map (·.link) :=
      (hmem _).2 ⟨link, Attempt.entry_eq_ok_iff.2 hlink, hsource⟩
    obtain ⟨g', hg', hsame⟩ := List.mem_map.1 hglink
    exact (hleaves g' hg').eq_of_link_eq hg hsame ▸ hg'
  obtain ⟨before, after, hsplit, hbefore, hafter⟩ := split_of_nearest? hchosen
  have hgahead : g ∈ before ++ h :: after := hsplit ▸ List.mem_filter.2 ⟨hgoption, hahead⟩
  rcases List.mem_append.1 hgahead with hg | hg
  · exact .inl (hbefore g hg)
  · rcases List.mem_cons.1 hg with rfl | hg
    · exact .inr ⟨rfl, Nat.le_refl _⟩
    · have horder : (before ++ h :: after).Pairwise fun k k' ↦ k.link.index < k'.link.index :=
        hsplit ▸ (List.pairwise_map.1 hascending).filter _
      have hlater := List.rel_of_pairwise_cons (List.pairwise_append.1 horder).2.1 hg
      exact (Nat.lt_or_eq_of_le (hafter g hg)).imp_right fun heq ↦ ⟨heq, Nat.le_of_lt hlater⟩

/-! ### Guided routes -/

/-- A route that takes the chosen hop at every router until it comes to the sink. -/
inductive Guided (t : Topology α) (target : Tile) (sink : RouterId) : RouterId → Route → Prop where
  /-- The route has come to the sink. -/
  | arrived : Guided t target sink sink []
  /-- A hop, and then the rest of the route. -/
  | hop {here : RouterId} {place : Tile} {h : Hop} {route : Route} : here ≠ sink →
      Choice t target here place h → Guided t target sink h.next route →
        Guided t target sink here (h.link :: route)

/-- **A route that is found** from a router other than the sink goes on with the chosen hop. -/
theorem walk_eq_ok (hw : t.WellFormed) {source sink here : RouterId} {router target : Router α}
    (hne : here ≠ sink) (hrouter : t.routers[here.index]? = some router)
    (htarget : t.routers[sink.index]? = some target) {fuel : Nat} {visited : Array Bool}
    {trail found : Route} (h : walk t source sink fuel visited here trail = .ok found) :
    ∃ g fuel' visited', Choice t target.tile here router.tile g ∧ fuel = fuel' + 1 ∧
      walk t source sink fuel' visited' g.next (g.link :: trail) = .ok found := by
  obtain ⟨links, options, hlinks, hoptions⟩ :
      ∃ links options, t.outgoing here = .ok links ∧ hops t links = .ok options := by
    rw [walk_eq, if_neg hne] at h
    obtain ⟨_, -, h⟩ := Attempt.bind_eq_ok_iff.1 h
    obtain ⟨_, -, h⟩ := Attempt.bind_eq_ok_iff.1 h
    obtain ⟨links, hlinks, h⟩ := Attempt.bind_eq_ok_iff.1 h
    obtain ⟨options, hoptions, -⟩ := Attempt.bind_eq_ok_iff.1 h
    exact ⟨links, options, hlinks, hoptions⟩
  rw [walk_of_ne hne hrouter htarget hlinks hoptions] at h
  cases hchosen : chosen router target options with
  | none =>
    rw [hchosen] at h
    cases h
  | some g =>
    rw [hchosen] at h
    obtain ⟨seen, -, h⟩ := Attempt.bind_eq_ok_iff.1 h
    cases seen with
    | true => cases h
    | false =>
      cases fuel with
      | zero => cases h
      | succ fuel =>
        exact ⟨g, fuel, _, choice_of_chosen hw hrouter hlinks hoptions hchosen, rfl, h⟩

/-- The hops that are added to a trail are guided by the tile of the sink. -/
theorem guided_of_walk (hw : t.WellFormed) {source sink here : RouterId} {target : Router α}
    (htarget : t.routers[sink.index]? = some target) {fuel : Nat} {visited : Array Bool}
    {trail found : Route} (hhere : here.index < t.routers.size)
    (h : walk t source sink fuel visited here trail = .ok found) :
    ∃ route, found = trail.reverse ++ route ∧ Guided t target.tile sink here route := by
  induction fuel using Nat.strongRecOn generalizing visited here trail with
  | ind fuel ih =>
    rcases eq_or_ne here sink with rfl | hne
    · rw [walk_sink] at h
      cases h
      exact ⟨[], (List.append_nil _).symm, .arrived⟩
    · obtain ⟨g, fuel, visited, hchoice, rfl, hrest⟩ :=
        walk_eq_ok hw hne (Array.getElem?_eq_getElem hhere) htarget h
      obtain ⟨-, next, -, -, -, hnext, -⟩ := hchoice.leaves
      obtain ⟨route, hfound, hroute⟩ :=
        ih fuel (Nat.lt_succ_self _) (Array.getElem?_eq_some_iff.1 hnext).1 hrest
      exact ⟨g.link :: route, by simp [hfound], .hop hne hchoice hroute⟩

/-- **Routes are guided** by the tile of the sink. -/
theorem guided_of_route (hw : t.WellFormed) {source sink : RouterId} {first last : Router α}
    (hfirst : t.routers[source.index]? = some first)
    (hlast : t.routers[sink.index]? = some last) {found : Route}
    (h : route t source sink = .ok found) : Guided t last.tile sink source found := by
  obtain ⟨-, -, h⟩ := Attempt.bind_eq_ok_iff.1 h
  obtain ⟨found, rfl, hguided⟩ :=
    guided_of_walk hw hlast (Array.getElem?_eq_some_iff.1 hfirst).1 h
  exact hguided

namespace Guided

variable {target : Tile} {sink here : RouterId} {found : Route}

/-- A guided route follows the links to the sink. -/
theorem walk (h : Guided t target sink here found) : t.Walk here found sink := by
  induction h with
  | arrived => exact .nil sink
  | hop _ hchoice _ ih =>
    obtain ⟨link, -, hlink, rfl, hnext, -⟩ := hchoice.leaves
    exact .cons hlink (hnext ▸ ih)

/-- What holds of the hops that are chosen holds of every hop of a guided route. -/
theorem forall_hops {P : LinkId → Prop} (h : Guided t target sink here found)
    (hP : ∀ {here : RouterId} {place : Tile} {g : Hop}, here ≠ sink →
      Choice t target here place g → P g.link) : ∀ l ∈ found, P l := by
  induction h with
  | arrived => exact List.forall_mem_nil _
  | hop hne hchoice _ ih => exact List.forall_mem_cons.2 ⟨hP hne hchoice, ih⟩

end Guided

/-- A hop that is chosen is from the tile of its router. -/
theorem Choice.place_eq {target place : Tile} {here : RouterId} {g : Hop} {r : Router α}
    (h : Choice t target here place g) (hr : t.routers[here.index]? = some r) :
    place = r.tile := by
  obtain ⟨r', hr', rfl⟩ := h.router
  rw [Option.some.inj (hr'.symm.trans hr)]

/-- A hop that a route takes along the row of its source. -/
def AlongRow (t : Topology α) (target : Tile) (y : UInt32) (l : LinkId) : Prop :=
  ∃ here place h, Choice t target here place h ∧ h.link = l ∧ place.y = y ∧ h.tile.y = y ∧
    place.x ≠ h.tile.x

/-- A hop that a route takes along the column of its sink. -/
def AlongColumn (t : Topology α) (target : Tile) (l : LinkId) : Prop :=
  ∃ here place h, Choice t target here place h ∧ h.link = l ∧ place.x = target.x ∧
    h.tile.x = target.x ∧ place.y ≠ h.tile.y

/-- In the column of the sink a route stays in it. -/
theorem Guided.alongColumn {target : Tile} {sink here : RouterId} {found : Route} {r : Router α}
    (h : Guided t target sink here found) (hr : t.routers[here.index]? = some r)
    (hcolumn : r.tile.x = target.x) : ∀ l ∈ found, AlongColumn t target l := by
  induction h generalizing r with
  | arrived => exact List.forall_mem_nil _
  | @hop here place g _ hne hchoice _ ih =>
    obtain rfl := hchoice.place_eq hr
    rcases ahead_cases hchoice.ahead with ⟨hx, -, -⟩ | ⟨hx, hnextx, hy⟩
    · exact absurd hcolumn hx
    · obtain ⟨-, next, -, -, -, hnext, htile⟩ := hchoice.leaves
      have hstay := hnextx.trans hx
      exact List.forall_mem_cons.2 ⟨⟨here, _, g, hchoice, rfl, hx, hstay, hy⟩,
        ih hnext (htile ▸ hstay)⟩

/-- **A guided route turns once.** -/
theorem Guided.split {target : Tile} {sink here : RouterId} {found : Route} {r : Router α}
    (h : Guided t target sink here found) (hr : t.routers[here.index]? = some r) :
    ∃ row column corner, found = row ++ column ∧ t.Walk here row corner ∧
      t.Walk corner column sink ∧ (∀ l ∈ row, AlongRow t target r.tile.y l) ∧
      ∀ l ∈ column, AlongColumn t target l := by
  induction h generalizing r with
  | arrived =>
    exact ⟨[], [], sink, rfl, .nil _, .nil _, List.forall_mem_nil _, List.forall_mem_nil _⟩
  | @hop here place g route hne hchoice hroute ih =>
    obtain rfl := hchoice.place_eq hr
    rcases ahead_cases hchoice.ahead with ⟨-, hy, hx⟩ | ⟨hx, -, -⟩
    · obtain ⟨link, next, hlink, rfl, hsink, hnext, htile⟩ := id hchoice.leaves
      obtain ⟨row, column, corner, rfl, hrow, hcolumn, hallrow, hallcolumn⟩ := ih hnext
      rw [← htile, hy] at hallrow
      exact ⟨g.link :: row, column, corner, rfl, .cons hlink (hsink ▸ hrow), hcolumn,
        List.forall_mem_cons.2 ⟨⟨_, _, g, hchoice, rfl, rfl, hy, hx⟩, hallrow⟩, hallcolumn⟩
    · -- the route is in the column of the sink already
      have hguided : Guided t target sink here (g.link :: route) := .hop hne hchoice hroute
      exact ⟨[], _, here, rfl, .nil _, hguided.walk, List.forall_mem_nil _,
        hguided.alongColumn hr hx⟩

/-! ### Routes -/

section Route

variable {source sink : RouterId} {first last : Router α} {found : Route}

/-- **A dimension-ordered route turns at most once.** It consists of hops along the row of its
source and then of hops along the column of its sink, and either part may be empty. Every hop is the
chosen one: of the links that leave the router straight ahead it follows one that leads to a nearest
router, and of these the one that was added first. -/
theorem route_turns_once (ht : t.Built) (hfirst : t.router source = .ok first)
    (hlast : t.router sink = .ok last) (h : route t source sink = .ok found) :
    ∃ row column corner, found = row ++ column ∧ t.Walk source row corner ∧
      t.Walk corner column sink ∧ (∀ l ∈ row, AlongRow t last.tile first.tile.y l) ∧
      ∀ l ∈ column, AlongColumn t last.tile l := by
  have hfirst := Attempt.entry_eq_ok_iff.1 hfirst
  exact (guided_of_route ht.wellFormed hfirst (Attempt.entry_eq_ok_iff.1 hlast) h).split hfirst

/-- Two links lead from the corner of the diamond along its row. The route follows the one that was
added first, and then it turns. -/
theorem route_turns_once_diamond :
    route Diamond.topology ⟨0⟩ ⟨3⟩ = .ok [⟨2⟩, ⟨4⟩] ∧
      ∃ row column corner, [⟨2⟩, ⟨4⟩] = row ++ column ∧ Diamond.topology.Walk ⟨0⟩ row corner ∧
        Diamond.topology.Walk corner column ⟨3⟩ ∧
        (∀ l ∈ row, AlongRow Diamond.topology ⟨1, 1, 0⟩ 0 l) ∧
        ∀ l ∈ column, AlongColumn Diamond.topology ⟨1, 1, 0⟩ l := by
  have hroute : route Diamond.topology ⟨0⟩ ⟨3⟩ = .ok [⟨2⟩, ⟨4⟩] := by decide +kernel
  exact ⟨hroute, route_turns_once Diamond.built_topology rfl rfl hroute⟩

/-- **The heading of every hop.** A hop leads right, left or up exactly if the sink lies there,
where the columns come first. It leads down exactly if the sink lies below in the same column, or if
the router is on another layer of the tile of the sink. -/
theorem route_headings (ht : t.Built) (hfirst : t.router source = .ok first)
    (hlast : t.router sink = .ok last) (h : route t source sink = .ok found) :
    ∀ l ∈ found, ∃ link here next, t.link l = .ok link ∧ t.router link.source = .ok here ∧
      t.router link.sink = .ok next ∧
      (here.tile.x < next.tile.x ↔ here.tile.x < last.tile.x) ∧
      (next.tile.x < here.tile.x ↔ last.tile.x < here.tile.x) ∧
      (here.tile.y < next.tile.y ↔ here.tile.x = last.tile.x ∧ here.tile.y < last.tile.y) ∧
      (next.tile.y < here.tile.y ↔ here.tile.x = last.tile.x ∧ (last.tile.y < here.tile.y ∨
        here.tile.y = last.tile.y ∧ here.tile.layer ≠ last.tile.layer)) := by
  refine (guided_of_route ht.wellFormed (Attempt.entry_eq_ok_iff.1 hfirst)
    (Attempt.entry_eq_ok_iff.1 hlast) h).forall_hops fun {_ _ _} hne hchoice ↦ ?_
  obtain ⟨r, hr, rfl⟩ := hchoice.router
  obtain ⟨link, next, hlink, rfl, hsink, hnext, htile⟩ := hchoice.leaves
  obtain ⟨hright, hleft, hup, hdown⟩ := htile ▸ ahead_iff hchoice.ahead
  have hr : t.router link.source = .ok r := Attempt.entry_eq_ok_iff.2 hr
  refine ⟨link, r, next, Attempt.entry_eq_ok_iff.2 hlink, hr,
    Attempt.entry_eq_ok_iff.2 (hsink ▸ hnext), hright, hleft, hup, hdown.trans ?_⟩
  -- only one router stands on the tile of the sink, and it is not this one
  have hother : r.tile ≠ last.tile := fun heq ↦ hne <| Option.some.inj <|
    (ht.routerAt?_eq_some_iff.2 ⟨r, hr, heq⟩).symm.trans
      (ht.routerAt?_eq_some_iff.2 ⟨last, hlast, rfl⟩)
  rw [ne_eq, Tile.mk.injEq] at hother
  refine and_congr_right fun hx ↦ ?_
  grind

end Route

end DimensionOrder

/-! ### Two layers -/

namespace Tower

/-- Two routers share a tile on different layers, and the only way from one to the other is over a
router below them. -/
def topology : Topology Exact where
  routers := #[⟨0, ⟨0, 1, 0⟩, .number 1⟩, ⟨1, ⟨0, 1, 1⟩, .number 1⟩, ⟨2, ⟨0, 0, 0⟩, .number 1⟩]
  links := #[⟨⟨0⟩, ⟨2⟩, .number 8, .number 1⟩, ⟨⟨2⟩, ⟨1⟩, .number 8, .number 1⟩]
  departures := #[[⟨0⟩], [], [⟨1⟩]]

theorem built_topology : topology.Built := by
  have h₁ := Topology.Built.addRouter .empty (Topology.addRouter_of_free 0 (Exact.number 1)
    (by decide +kernel : Topology.routerAt? _ ⟨0, 1, 0⟩ = none))
  have h₂ := h₁.addRouter (Topology.addRouter_of_free 1 (Exact.number 1)
    (by decide +kernel : Topology.routerAt? _ ⟨0, 1, 1⟩ = none))
  have h₃ := h₂.addRouter (Topology.addRouter_of_free 2 (Exact.number 1)
    (by decide +kernel : Topology.routerAt? _ ⟨0, 0, 0⟩ = none))
  have h₄ := h₃.addLink
    (show Topology.addLink _ ⟨0⟩ ⟨2⟩ (.number 8) (.number 1) = .ok (⟨0⟩, _) from rfl)
  exact h₄.addLink
    (show Topology.addLink _ ⟨2⟩ ⟨1⟩ (.number 8) (.number 1) = .ok (⟨1⟩, _) from rfl)

theorem route_topology : DimensionOrder.route topology ⟨0⟩ ⟨1⟩ = .ok [⟨0⟩, ⟨1⟩] := by
  decide +kernel

end Tower

namespace DimensionOrder

/-- Between the two layers of a tile the route leads down first and then up again, and both hops are
accounted for. -/
theorem route_headings_tower :
    route Tower.topology ⟨0⟩ ⟨1⟩ = .ok [⟨0⟩, ⟨1⟩] ∧
      ∀ l ∈ ([⟨0⟩, ⟨1⟩] : Route), ∃ link here next, Tower.topology.link l = .ok link ∧
        Tower.topology.router link.source = .ok here ∧ Tower.topology.router link.sink = .ok next ∧
        (here.tile.y < next.tile.y ↔ here.tile.x = 0 ∧ here.tile.y < 1) ∧
        (next.tile.y < here.tile.y ↔ here.tile.x = 0 ∧
          (1 < here.tile.y ∨ here.tile.y = 1 ∧ here.tile.layer ≠ 1)) := by
  refine ⟨Tower.route_topology, fun l hl ↦ ?_⟩
  obtain ⟨link, here, next, hlink, hhere, hnext, -, -, hup, hdown⟩ :=
    route_headings Tower.built_topology rfl rfl Tower.route_topology l hl
  exact ⟨link, here, next, hlink, hhere, hnext, hup, hdown⟩

/-- **A hop down need not start above the sink.** A router that shares the tile of the sink is left
over a link that leads down from the row of the sink. -/
theorem route_leaves_row_of_sink :
    ∃ found link here next last, route Tower.topology ⟨0⟩ ⟨1⟩ = .ok found ∧
      Tower.topology.link ⟨0⟩ = .ok link ∧ ⟨0⟩ ∈ found ∧
      Tower.topology.router link.source = .ok here ∧ Tower.topology.router link.sink = .ok next ∧
      Tower.topology.router ⟨1⟩ = .ok last ∧ here.tile.x = last.tile.x ∧
      here.tile.y = last.tile.y ∧ next.tile.y < here.tile.y ∧ ¬ last.tile.y < here.tile.y :=
  ⟨_, _, _, _, _, Tower.route_topology, rfl, by decide, rfl, rfl, rfl, by decide⟩

end DimensionOrder

end NetOnChip
