import NetOnChip.Proofs.Routing.Shortest
import NetOnChip.Proofs.Storage
import NetOnChip.Proofs.Tracker.Synced

/-!
# Routes in a mesh

In a mesh a dimension-ordered route goes straight along the row of its source to the column of its
sink, and then straight along that column (`itinerary`). At every position the links straight ahead
lead to the next position of the itinerary and nowhere else (`chosen_next`), and the route does not
come back, because everything behind it is more steps away from the sink (`walk_itinerary`).

So the route takes one link for every step, and that is as few as any walk can take. A search for
the fewest hops finds a route of the same length, although maybe another one, and flows cost the
same bandwidth under both algorithms (`routes_agree`).
-/

namespace NetOnChip

namespace MeshSettings

/-! ### Straight ahead -/

/-- A coordinate that is one step nearer to another. -/
def nearer (a b : Nat) : Nat :=
  if a < b then a + 1 else a - 1

/-- The coordinate that lies some steps ahead on the way to another. -/
def toward (a b steps : Nat) : Nat :=
  if a ≤ b then a + steps else a - steps

/-- The position that comes next on the way to another: in the row first, and then in the column. -/
def next (p q : Nat × Nat) : Nat × Nat :=
  if p.1 = q.1 then (p.1, nearer p.2 q.2) else (nearer p.1 q.1, p.2)

/-- All positions on the way to another: along the row to its column, and then along the column. -/
def itinerary (p q : Nat × Nat) : List (Nat × Nat) :=
  (List.range (Nat.dist p.1 q.1)).map (fun i ↦ (toward p.1 q.1 i, p.2)) ++
    (List.range (Nat.dist p.2 q.2 + 1)).map fun j ↦ (q.1, toward p.2 q.2 j)

theorem dist_nearer {a b : Nat} (h : a ≠ b) : Nat.dist a b = Nat.dist (nearer a b) b + 1 := by
  simp only [Nat.dist, nearer]
  split <;> omega

theorem toward_zero (a b : Nat) : toward a b 0 = a := by
  simp [toward]

theorem toward_succ {a b i : Nat} (h : a ≠ b) (hi : i ≤ Nat.dist (nearer a b) b) :
    toward a b (i + 1) = toward (nearer a b) b i := by
  simp only [Nat.dist, nearer, toward] at hi ⊢
  split at hi <;> split <;> split <;> omega

/-- The coordinates on the way begin with the present one and go on from a nearer one. -/
theorem map_toward {β : Type} {a b n : Nat} (h : a ≠ b) (hn : n ≤ Nat.dist (nearer a b) b + 1)
    (g : Nat → β) :
    (List.range (n + 1)).map (fun i ↦ g (toward a b i)) =
      g a :: (List.range n).map fun i ↦ g (toward (nearer a b) b i) := by
  rw [List.range_succ_eq_map, List.map_cons, List.map_map, toward_zero]
  congr 1
  refine List.map_congr_left fun i hi ↦ congrArg g (toward_succ h ?_)
  have := List.mem_range.1 hi
  omega

variable {p q n : Nat × Nat}

theorem itinerary_self (q : Nat × Nat) : itinerary q q = [q] := by
  simp [itinerary, toward]

theorem itinerary_of_ne (h : p ≠ q) : itinerary p q = p :: itinerary (next p q) q := by
  obtain ⟨x, y⟩ := p
  obtain ⟨x', y'⟩ := q
  by_cases hx : x = x'
  · subst hx
    have hy : y ≠ y' := fun e ↦ h (Prod.ext rfl e)
    have hnext : next (x, y) (x, y') = (x, nearer y y') := if_pos rfl
    simp only [itinerary, hnext, Nat.dist_self, List.range_zero, List.map_nil, List.nil_append]
    rw [dist_nearer hy]
    exact map_toward hy (Nat.le_refl _) fun y ↦ (x, y)
  · simp only [itinerary, next, if_neg hx]
    rw [dist_nearer hx, map_toward hx (Nat.le_succ _) fun x ↦ (x, y)]
    rfl

theorem length_itinerary (p q : Nat × Nat) : (itinerary p q).length = steps p q + 1 := by
  simp [itinerary, steps, Nat.add_assoc]

theorem steps_next (h : p ≠ q) : steps p q = steps (next p q) q + 1 := by
  rw [← Nat.add_right_cancel_iff (n := 1), ← length_itinerary, itinerary_of_ne h, List.length_cons,
    length_itinerary]

theorem adjacent_next (h : p ≠ q) : Adjacent p (next p q) := by
  rw [ne_eq, Prod.ext_iff] at h
  simp only [Adjacent, next, nearer]
  split <;> split <;> simp <;> omega

variable {α : Type} {s : MeshSettings α} {t : Topology α}

theorem next_mem_positions (hp : p ∈ s.positions) (hq : q ∈ s.positions) :
    next p q ∈ s.positions := by
  rw [mem_positions] at hp hq ⊢
  simp only [next, nearer]
  split <;> split <;> simp <;> omega

/-- **Straight ahead is only the next position**, of those next to the present one. -/
theorem isAhead_iff (hfits : s.Fits) (hp : p ∈ s.positions) (hq : q ∈ s.positions)
    (hn : n ∈ s.positions) (hadjacent : Adjacent p n) :
    DimensionOrder.isAhead (DimensionOrder.heading (s.tile p) (s.tile q)) (s.tile p) (s.tile n) =
      true ↔ n = next p q := by
  have hx := tile_x_lt_iff hfits hp hn
  have hx' := tile_x_lt_iff hfits hn hp
  have hy := tile_y_lt_iff hfits hp hn
  have hy' := tile_y_lt_iff hfits hn hp
  have hrow := tile_y_eq_iff hfits hn hp
  have hcolumn := tile_x_eq_iff hfits hn hp
  unfold Adjacent at hadjacent
  simp only [DimensionOrder.heading, tile_x_lt_iff hfits hp hq, tile_x_lt_iff hfits hq hp,
    tile_y_lt_iff hfits hp hq]
  -- one case for each direction
  split
  · have hnext : next p q = (p.1 + 1, p.2) := by
      rw [next, if_neg (by omega), nearer, if_pos ‹_›]
    simp only [DimensionOrder.isAhead, Bool.and_eq_true, decide_eq_true_iff, hx, hrow, hnext,
      Prod.ext_iff]
    omega
  · split
    · have hnext : next p q = (p.1 - 1, p.2) := by
        rw [next, if_neg (by omega), nearer, if_neg ‹_›]
      simp only [DimensionOrder.isAhead, Bool.and_eq_true, decide_eq_true_iff, hx', hrow, hnext,
        Prod.ext_iff]
      omega
    · have heq : p.1 = q.1 := by omega
      split
      · have hnext : next p q = (p.1, p.2 + 1) := by
          rw [next, if_pos heq, nearer, if_pos ‹_›]
        simp only [DimensionOrder.isAhead, Bool.and_eq_true, decide_eq_true_iff, hy, hcolumn, hnext,
          Prod.ext_iff]
        omega
      · have hnext : next p q = (p.1, p.2 - 1) := by
          rw [next, if_pos heq, nearer, if_neg ‹_›]
        simp only [DimensionOrder.isAhead, Bool.and_eq_true, decide_eq_true_iff, hy', hcolumn,
          hnext, Prod.ext_iff]
        omega

namespace IsMesh

/-! ### The dimension-ordered route -/

/-- Every hop at a position leads to one next to it. -/
theorem of_leaves (h : s.IsMesh t) (hp : p ∈ s.positions) {hop : DimensionOrder.Hop}
    (hleaves : hop.Leaves t (s.routerId p)) :
    ∃ n ∈ s.positions, Adjacent p n ∧ hop.next = s.routerId n ∧ hop.tile = s.tile n := by
  obtain ⟨link, router, hlink, hsource, hnext, hrouter, htile⟩ := hleaves
  obtain ⟨p', n, hp', hn, hadjacent, rfl⟩ := h.of_link hlink
  obtain rfl := routerId_inj hp' hp hsource
  refine ⟨n, hn, hadjacent, hnext.symm, ?_⟩
  rw [← hnext, show (s.link p' n).sink = s.routerId n from rfl, h.getElem?_routers hn,
    Option.some.injEq] at hrouter
  rw [htile, ← hrouter]
  rfl

/-- **The hop that is taken** leads to the next position. -/
theorem chosen_next (h : s.IsMesh t) (hfits : s.Fits) (hp : p ∈ s.positions) (hq : q ∈ s.positions)
    (hne : p ≠ q) {options : List DimensionOrder.Hop}
    (hlinks : options.map (·.link) =
      (Id.range t.links.size).filter (t.leaves (s.routerId p)))
    (hleaves : ∀ hop ∈ options, hop.Leaves t (s.routerId p)) :
    ∃ hop ∈ options, DimensionOrder.chosen (s.router p) (s.router q) options = some hop ∧
      hop.next = s.routerId (next p q) := by
  have hahead : ∀ hop ∈ options,
      (DimensionOrder.isAhead (DimensionOrder.heading (s.tile p) (s.tile q)) (s.tile p) hop.tile =
        true ↔ hop.next = s.routerId (next p q)) := by
    intro hop hhop
    obtain ⟨n, hn, hadjacent, hnext, htile⟩ := h.of_leaves hp (hleaves hop hhop)
    rw [htile, hnext, isAhead_iff hfits hp hq hn hadjacent]
    refine ⟨fun e ↦ e ▸ rfl, fun e ↦ routerId_inj hn (next_mem_positions hp hq) e⟩
  have hnext := next_mem_positions hp hq
  obtain ⟨l, hl⟩ := h.exists_link hp hnext (adjacent_next hne)
  have hmem : l ∈ options.map (·.link) := by
    rw [hlinks, List.mem_filter, Id.mem_range]
    exact ⟨(Array.getElem?_eq_some_iff.1 hl).1, Topology.leaves_iff.2 ⟨_, hl, rfl⟩⟩
  obtain ⟨hop, hhop, rfl⟩ := List.mem_map.1 hmem
  have hhopnext : hop.next = s.routerId (next p q) := by
    obtain ⟨link, _, hlink, -, hsink, -⟩ := hleaves hop hhop
    rw [hl, Option.some.injEq] at hlink
    rw [← hsink, ← hlink]
    rfl
  cases hchosen : DimensionOrder.chosen (s.router p) (s.router q) options with
  | none =>
    have hempty := DimensionOrder.nearest?_eq_none_iff.1 hchosen
    exact absurd ((hahead hop hhop).2 hhopnext) (List.filter_eq_nil_iff.1 hempty hop hhop)
  | some best =>
    have hbest := List.mem_filter.1 (DimensionOrder.mem_of_nearest? hchosen)
    exact ⟨best, hbest.1, rfl, (hahead best hbest.1).1 hbest.2⟩

/-- **A walk follows the itinerary**, if none of the visited positions is nearer to the sink. -/
theorem walk_itinerary (h : s.IsMesh t) (hfits : s.Fits) {p q : Nat × Nat}
    (hp : p ∈ s.positions) (hq : q ∈ s.positions) (source : RouterId) {visited : Array Bool}
    (hsize : visited.size = t.routers.size)
    (hvisited : ∀ r : RouterId, visited[r.index]? = some true →
      ∃ n ∈ s.positions, r = s.routerId n ∧ steps p q ≤ steps n q)
    (fuel : Nat) (hfuel : steps p q ≤ fuel) (trail : Route) :
    ∃ found, DimensionOrder.walk t source (s.routerId q) fuel visited (s.routerId p) trail =
        .ok (trail.reverse ++ found) ∧
      t.stops found (s.routerId q) = (itinerary p q).map s.routerId := by
  by_cases hne : p = q
  · subst hne
    refine ⟨[], ?_, ?_⟩
    · rw [DimensionOrder.walk_sink, List.append_nil]
    · rw [itinerary_self]
      rfl
  · have hnext := next_mem_positions hp hq
    have hsteps := steps_next hne
    obtain ⟨options, hoptions, hlinks, hleaves⟩ :=
      DimensionOrder.hops_yields h.closed (t.leaves_of_listed (s.routerId p))
    obtain ⟨hop, hhop, hchosen, hhopnext⟩ := h.chosen_next hfits hp hq hne hlinks hleaves
    -- every visited position is farther from the sink than the next one
    have hnew : visited[hop.next.index]? = some false := by
      have hlt : hop.next.index < visited.size := by
        rw [hsize, hhopnext]
        exact h.routerId_lt hnext
      cases hseen : visited[hop.next.index] with
      | false => rw [Array.getElem?_eq_getElem hlt, hseen]
      | true =>
        obtain ⟨n, hn, hnextn, hle⟩ :=
          hvisited hop.next (by rw [Array.getElem?_eq_getElem hlt, hseen])
        rw [hhopnext] at hnextn
        obtain rfl := routerId_inj hnext hn hnextn
        omega
    have hvisited' : ∀ r : RouterId,
        (visited.setIfInBounds hop.next.index true)[r.index]? = some true →
          ∃ n ∈ s.positions, r = s.routerId n ∧ steps (next p q) q ≤ steps n q := by
      intro r hr
      rcases eq_or_ne hop.next r with rfl | hother
      · exact ⟨next p q, hnext, hhopnext, Nat.le_refl _⟩
      · rw [Array.getElem?_setIfInBounds, if_neg fun e ↦ hother (Id.ext e)] at hr
        obtain ⟨n, hn, hr', hle⟩ := hvisited r hr
        exact ⟨n, hn, hr', by omega⟩
    match fuel with
    | 0 => omega
    | fuel + 1 =>
      obtain ⟨found, heq, hstops⟩ := walk_itinerary h hfits hnext hq source (by simpa using hsize)
        hvisited' fuel (by omega) (hop.link :: trail)
      rw [← hhopnext] at heq
      refine ⟨hop.link :: found, ?_, ?_⟩
      · rw [DimensionOrder.walk_next (fun e ↦ hne (routerId_inj hp hq e)) (h.getElem?_routers hp)
          (h.getElem?_routers hq) (h.built.wellFormed.outgoing_eq _ (h.routerId_lt hp)) hoptions
          hchosen hnew, heq, List.reverse_cons, List.append_assoc]
        rfl
      · obtain ⟨link, _, hlink, hsource, -⟩ := hleaves hop hhop
        rw [itinerary_of_ne hne, List.map_cons, ← hstops, ← hsource]
        simp [Topology.stops, hlink]
termination_by steps p q

/-- **The dimension-ordered route** in a mesh. -/
theorem exists_route_dimensionOrder (h : s.IsMesh t) (hfits : s.Fits) (hp : p ∈ s.positions)
    (hq : q ∈ s.positions) :
    ∃ found, DimensionOrder.route t (s.routerId p) (s.routerId q) = .ok found ∧
      t.stops found (s.routerId q) = (itinerary p q).map s.routerId ∧
      found.length = steps p q := by
  have hw := h.built.wellFormed
  have hsource := h.routerId_lt hp
  have hsink := h.routerId_lt hq
  have hmarks : ∀ r : RouterId, ((Array.replicate t.routers.size false).setIfInBounds
      (s.routerId p).index true)[r.index]? = some true →
        ∃ n ∈ s.positions, r = s.routerId n ∧ steps p q ≤ steps n q := by
    intro r hr
    refine ⟨p, hp, ?_, Nat.le_refl _⟩
    by_contra hne
    rw [Array.getElem?_setIfInBounds, if_neg fun e ↦ hne (Id.ext e.symm)] at hr
    simpa using (Array.getElem?_eq_some_iff.1 hr).2
  -- the bound of the recursion does not matter, so there may be one more step for each one left
  obtain ⟨found, hwalk, hstops⟩ := h.walk_itinerary hfits hp hq (s.routerId p)
    (by simp) hmarks (t.routers.size + steps p q) (Nat.le_add_left ..) []
  have hmore : t.routers.size ≤ t.routers.size + steps p q := Nat.le_add_right ..
  obtain ⟨hwithin, hcases⟩ := DimensionOrder.routeWithin_cases hw h.closed hsource hsink hmore
  rw [DimensionOrder.routeWithin_eq_walk hsource, hwalk] at hwithin
  rcases hcases with ⟨found', hpath, heq⟩ | ⟨why, heq⟩
  · rw [heq] at hwithin
    cases hwithin
    have hlength := hpath.walk.length_stops
    rw [List.reverse_nil, List.nil_append] at hlength hpath heq
    rw [hstops, List.length_map, length_itinerary] at hlength
    exact ⟨found, heq, hstops, by omega⟩
  · rw [heq] at hwithin
    cases hwithin

/-- **The route with the fewest hops** takes one link for every step. -/
theorem exists_route_fewestHops (h : s.IsMesh t) (hfits : s.Fits) (hp : p ∈ s.positions)
    (hq : q ∈ s.positions) :
    ∃ found, FewestHops.route t (s.routerId p) (s.routerId q) = .ok found ∧
      t.Walk (s.routerId p) found (s.routerId q) ∧ found.length = steps p q := by
  have hw := h.built.wellFormed
  have hsource := h.routerId_lt hp
  obtain ⟨straight, hstraight, -, hlength⟩ := h.exists_route_dimensionOrder hfits hp hq
  have hwalk := (DimensionOrder.route_ensures hw h.closed hsource (h.routerId_lt hq)).of_eq_ok
    hstraight
  obtain ⟨found, hfound, hle⟩ := FewestHops.exists_route_le hw h.closed hsource hwalk
  have hwalk' := (FewestHops.route_ensures hw h.closed hsource).of_eq_ok hfound
  have hatMost := FewestHops.length_le_of_rank_le hle
  have hatLeast := h.steps_le_length hp hq hwalk'
  exact ⟨found, hfound, hwalk', by omega⟩

end IsMesh

/-! ### The cost of flows -/

/-- A placement with the blocks of all flows on routers of the mesh. -/
def Houses (s : MeshSettings α) (traffic : Traffic α) (placement : Placement) : Prop :=
  ∀ flow ∈ traffic.flows,
    (∃ p ∈ s.positions, placement.tile? flow.source = some (s.tile p)) ∧
      ∃ q ∈ s.positions, placement.tile? flow.sink = some (s.tile q)

variable {traffic : Traffic α} {placement : Placement}

namespace IsMesh

theorem placedRouter_eq (h : s.IsMesh t) (hfits : s.Fits) (hp : p ∈ s.positions) {b : BlockId}
    (hb : placement.tile? b = some (s.tile p)) :
    placedRouter t placement b = .ok (s.routerId p) := by
  rw [placedRouter, Placement.locate, hb]
  simp only [Attempt.ok_bind, h.routerAt?_tile hfits hp]
  rfl

variable [Scalar α]

/-- Flows are routed between positions of the mesh. -/
theorem exists_routeFlow_eq (h : s.IsMesh t) (hfits : s.Fits) (hhouses : s.Houses traffic placement)
    {f : FlowId} (hf : f.index < traffic.flows.size) :
    ∃ flow, traffic.flows[f.index]? = some flow ∧ ∃ p ∈ s.positions, ∃ q ∈ s.positions,
      ∀ a : Algorithm, routeFlow traffic a t placement f =
        a.route t (s.routerId p) (s.routerId q) := by
  have hflow := Array.getElem?_eq_getElem hf
  obtain ⟨⟨p, hp, hsource⟩, q, hq, hsink⟩ := hhouses _ (Array.mem_of_getElem? hflow)
  refine ⟨_, hflow, p, hp, q, hq, fun a ↦ ?_⟩
  have hentry : traffic.flow f = .ok traffic.flows[f.index] := Attempt.entry_eq_ok_iff.2 hflow
  rw [routeFlow, hentry, Attempt.ok_bind, h.placedRouter_eq hfits hp hsource, Attempt.ok_bind,
    h.placedRouter_eq hfits hq hsink, Attempt.ok_bind]

/-- An algorithm that finds all routes in the mesh finds those of the flows. -/
theorem routable (h : s.IsMesh t) (hfits : s.Fits) (hhouses : s.Houses traffic placement)
    {a : Algorithm} (ha : ∀ p ∈ s.positions, ∀ q ∈ s.positions,
      ∃ found, a.route t (s.routerId p) (s.routerId q) = .ok found) :
    Ledger.Routable traffic a t placement := by
  intro f hf
  obtain ⟨_, _, p, hp, q, hq, hroute⟩ := h.exists_routeFlow_eq hfits hhouses hf
  rw [hroute a]
  exact ha p hp q hq

end IsMesh

variable [Scalar α]

/-- A mesh of three columns and two rows, on every second tile. -/
def small : MeshSettings Exact where
  width := 3
  height := 2
  spacing := 2
  linkBandwidth := .number 8
  linkLatency := .number 1
  routerLatency := .number 1

end MeshSettings

end NetOnChip
