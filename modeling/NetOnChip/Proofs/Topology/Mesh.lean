import Mathlib.Data.List.Nodup
import Mathlib.Data.Nat.Dist
import NetOnChip.Proofs.Topology.Walk
import NetOnChip.Topology.Mesh

/-!
# What a mesh looks like

A mesh that fits is built without a failure, and it has exactly the routers and links that its
settings call for, in their order (`build_isMesh`). From then on it is known by its positions: there
is one router for each, on a tile of its own (`IsMesh.routerAt?_tile`), and links lead from a
position to those next to it and to no others (`IsMesh.exists_link`, `IsMesh.of_link`). So a walk
between two positions takes at least as many links as they are steps apart
(`IsMesh.steps_le_length`).
-/

namespace NetOnChip

namespace Topology

theorem length_positions (width height : Nat) :
    (positions width height).length = width * height := by
  simp [positions]

theorem nodup_positions (width height : Nat) : (positions width height).Nodup := by
  refine List.Nodup.map (fun i j h ↦ ?_) List.nodup_range
  obtain ⟨hmod, hdiv⟩ := Prod.mk.inj h
  rw [← Nat.div_add_mod i width, ← Nat.div_add_mod j width, hmod, hdiv]

end Topology

namespace MeshSettings

variable {α : Type} (s : MeshSettings α)

/-- The router in a column and row. -/
def router (p : Nat × Nat) : Router α :=
  ⟨.ofNat (s.number p), s.tile p, s.routerLatency⟩

/-- The link from one position to another. -/
def link (p q : Nat × Nat) : Link α :=
  ⟨s.routerId p, s.routerId q, s.linkBandwidth, s.linkLatency⟩

/-- The links between neighbours, there and back. -/
def linksOf (ends : List ((Nat × Nat) × (Nat × Nat))) : List (Link α) :=
  ends.flatMap fun e ↦ [s.link e.1 e.2, s.link e.2 e.1]

/-- A topology with exactly the routers and links of the mesh. -/
structure IsMesh (t : Topology α) : Prop where
  /-- The topology was built. -/
  built : t.Built
  /-- There is one router for every position. -/
  routers_eq : t.routers = (s.positions.map s.router).toArray
  /-- There are two links between neighbours. -/
  links_eq : t.links = (s.linksOf s.ends).toArray

/-- Two positions next to each other, in a row or in a column. -/
def Adjacent (p q : Nat × Nat) : Prop :=
  p.2 = q.2 ∧ (p.1 + 1 = q.1 ∨ q.1 + 1 = p.1) ∨ p.1 = q.1 ∧ (p.2 + 1 = q.2 ∨ q.2 + 1 = p.2)

/-- How many steps two positions are apart. -/
def steps (p q : Nat × Nat) : Nat :=
  Nat.dist p.1 q.1 + Nat.dist p.2 q.2

variable {s} {t : Topology α} {p q : Nat × Nat}

/-! ### Positions -/

theorem mem_positions : p ∈ s.positions ↔ p.1 < s.width.toNat ∧ p.2 < s.height.toNat :=
  Topology.mem_positions

theorem nodup_positions : s.positions.Nodup :=
  Topology.nodup_positions ..

/-- The number of a position says where it stands in the list of all. -/
theorem getElem?_positions (hp : p ∈ s.positions) : s.positions[s.number p]? = some p := by
  obtain ⟨x, y⟩ := p
  obtain ⟨hx, hy⟩ := mem_positions.1 hp
  have hlt : y * s.width.toNat + x < s.width.toNat * s.height.toNat :=
    calc y * s.width.toNat + x < y * s.width.toNat + s.width.toNat := Nat.add_lt_add_left hx _
      _ = (y + 1) * s.width.toNat := (Nat.succ_mul ..).symm
      _ ≤ s.height.toNat * s.width.toNat := Nat.mul_le_mul_right _ hy
      _ = s.width.toNat * s.height.toNat := Nat.mul_comm ..
  have hmod : (y * s.width.toNat + x) % s.width.toNat = x := by
    rw [Nat.mul_comm, Nat.mul_add_mod, Nat.mod_eq_of_lt hx]
  have hdiv : (y * s.width.toNat + x) / s.width.toNat = y := by
    rw [Nat.mul_comm, Nat.mul_add_div (Nat.zero_lt_of_lt hx), Nat.div_eq_of_lt hx, Nat.add_zero]
  rw [positions, Topology.positions, List.getElem?_map, number, List.getElem?_range hlt,
    Option.map_some, hmod, hdiv]

theorem routerId_inj (hp : p ∈ s.positions) (hq : q ∈ s.positions)
    (h : s.routerId p = s.routerId q) : p = q := by
  have hnumber : s.number p = s.number q := congrArg Id.index h
  have hget := getElem?_positions hp
  rw [hnumber, getElem?_positions hq] at hget
  exact (Option.some.inj hget).symm

theorem pitch_pos : 0 < s.pitch :=
  Nat.lt_of_lt_of_le Nat.one_pos (Nat.le_max_right ..)

/-- The tiles of positions that fit have the coordinates that they should have. -/
theorem toNat_tile (h : s.Fits) (hp : p ∈ s.positions) :
    (s.tile p).x.toNat = p.1 * s.pitch ∧ (s.tile p).y.toNat = p.2 * s.pitch := by
  obtain ⟨-, hx, hy⟩ := s.fits_iff.1 h p hp
  exact ⟨UInt32.toNat_ofNat_of_lt' hx, UInt32.toNat_ofNat_of_lt' hy⟩

section Tiles

variable (h : s.Fits) (hp : p ∈ s.positions) (hq : q ∈ s.positions)

include h hp hq

/-- Columns of tiles are ordered as those of positions are. -/
theorem tile_x_lt_iff : (s.tile p).x < (s.tile q).x ↔ p.1 < q.1 := by
  rw [UInt32.lt_iff_toNat_lt, (toNat_tile h hp).1, (toNat_tile h hq).1,
    Nat.mul_lt_mul_right pitch_pos]

/-- So are rows. -/
theorem tile_y_lt_iff : (s.tile p).y < (s.tile q).y ↔ p.2 < q.2 := by
  rw [UInt32.lt_iff_toNat_lt, (toNat_tile h hp).2, (toNat_tile h hq).2,
    Nat.mul_lt_mul_right pitch_pos]

theorem tile_x_eq_iff : (s.tile p).x = (s.tile q).x ↔ p.1 = q.1 := by
  rw [← UInt32.toNat_inj, (toNat_tile h hp).1, (toNat_tile h hq).1, Nat.mul_left_inj pitch_pos.ne']

theorem tile_y_eq_iff : (s.tile p).y = (s.tile q).y ↔ p.2 = q.2 := by
  rw [← UInt32.toNat_inj, (toNat_tile h hp).2, (toNat_tile h hq).2, Nat.mul_left_inj pitch_pos.ne']

/-- Positions that fit have tiles of their own. -/
theorem tile_inj (htile : s.tile p = s.tile q) : p = q :=
  Prod.ext ((tile_x_eq_iff h hp hq).1 (congrArg Tile.x htile))
    ((tile_y_eq_iff h hp hq).1 (congrArg Tile.y htile))

end Tiles

theorem mem_neighbours : q ∈ s.neighbours p ↔
    p.2 = q.2 ∧ p.1 + 1 = q.1 ∧ q.1 < s.width.toNat ∨
      p.1 = q.1 ∧ p.2 + 1 = q.2 ∧ q.2 < s.height.toNat := by
  obtain ⟨x, y⟩ := p
  obtain ⟨x', y'⟩ := q
  simp only [neighbours, List.mem_append]
  split <;> split <;> simp <;> omega

theorem Adjacent.symm (h : Adjacent p q) : Adjacent q p := by
  unfold Adjacent at h ⊢
  omega

theorem adjacent_of_mem_neighbours (h : q ∈ s.neighbours p) : Adjacent p q := by
  rcases mem_neighbours.1 h with ⟨hrow, hnext, -⟩ | ⟨hcolumn, hnext, -⟩
  · exact .inl ⟨hrow, .inl hnext⟩
  · exact .inr ⟨hcolumn, .inl hnext⟩

/-- Of two positions next to each other, one is a neighbour that the other is linked to. -/
theorem mem_neighbours_or (hp : p ∈ s.positions) (hq : q ∈ s.positions) (h : Adjacent p q) :
    q ∈ s.neighbours p ∨ p ∈ s.neighbours q := by
  rw [mem_neighbours, mem_neighbours]
  rw [mem_positions] at hp hq
  unfold Adjacent at h
  omega

/-! ### Building -/

/-- Routers are added on tiles of their own, one after the other. -/
theorem foldlM_placeRouter (h : s.Fits) (before : List (Nat × Nat)) {ps : List (Nat × Nat)}
    (hmem : ∀ p ∈ before ++ ps, p ∈ s.positions) (hnodup : (before ++ ps).Nodup)
    (ht : t.Built) (hrouters : t.routers = (before.map s.router).toArray)
    (hlinks : t.links = #[]) :
    ∃ t', (ps.map s.placeRouter).foldlM Topology.add t = .ok t' ∧ t'.Built ∧
      t'.routers = ((before ++ ps).map s.router).toArray ∧ t'.links = #[] := by
  induction ps generalizing before t with
  | nil => exact ⟨t, rfl, ht, by simpa using hrouters, hlinks⟩
  | cons p ps ih =>
    have hfree : t.routerAt? (s.tile p) = none := by
      refine Topology.routerAt?_eq_none_iff.2 fun r hr htile ↦ ?_
      rw [hrouters, List.mem_toArray] at hr
      obtain ⟨q, hq, rfl⟩ := List.mem_map.1 hr
      have hqp : q = p := tile_inj h (hmem q (by simp [hq])) (hmem p (by simp)) htile
      exact (List.nodup_append.1 hnodup).2.2 q hq p List.mem_cons_self hqp
    have hadd := Topology.addRouter_of_free (.ofNat (s.number p)) s.routerLatency hfree
    have hstep : t.add (s.placeRouter p) = .ok
        { t with
          routers := t.routers.push (s.router p)
          departures := t.departures.push [] } := by
      rw [placeRouter, Topology.add, hadd]
      rfl
    have happend : before ++ p :: ps = before ++ [p] ++ ps := by simp
    rw [happend] at hmem hnodup ⊢
    rw [List.map_cons, List.foldlM_cons, hstep, Attempt.ok_bind]
    exact ih (before ++ [p]) hmem hnodup (ht.addRouter hadd) (by simp [hrouters]) hlinks

/-- Links are added between existing routers, one pair after the other. -/
theorem foldlM_connect {es : List ((Nat × Nat) × (Nat × Nat))}
    (hes : ∀ e ∈ es, e.1 ∈ s.positions ∧ e.2 ∈ s.positions) (ht : t.Built)
    (hrouters : t.routers = (s.positions.map s.router).toArray) :
    ∃ t', (es.map s.connect).foldlM Topology.add t = .ok t' ∧ t'.Built ∧
      t'.routers = t.routers ∧
      t'.links = t.links ++ (s.linksOf es).toArray := by
  induction es generalizing t with
  | nil => exact ⟨t, rfl, ht, rfl, by simp [linksOf]⟩
  | cons e es ih =>
    obtain ⟨⟨hp, hq⟩, hes⟩ := List.forall_mem_cons.1 hes
    have hlt : ∀ p ∈ s.positions, (s.routerId p).index < t.routers.size := by
      intro p hp
      show s.number p < _
      rw [hrouters, List.size_toArray, List.length_map]
      exact (List.getElem?_eq_some_iff.1 (getElem?_positions hp)).1
    obtain ⟨pair, t₁, hadd, hrouters₁, hlinks₁⟩ := Topology.exists_addLinkPair ht.wellFormed
      (hlt e.1 hp) (hlt e.2 hq) s.linkBandwidth s.linkLatency
    have hstep : t.add (s.connect e) = .ok t₁ := by
      rw [connect, Topology.add, hadd]
      rfl
    obtain ⟨t', heq, hbuilt, hrouters', hlinks'⟩ :=
      ih hes (ht.addLinkPair hadd) (hrouters₁.trans hrouters)
    refine ⟨t', ?_, hbuilt, hrouters'.trans hrouters₁, ?_⟩
    · rw [List.map_cons, List.foldlM_cons, hstep, Attempt.ok_bind, heq]
    · rw [hlinks', hlinks₁]
      simp [linksOf, link]

/-- The linked neighbours are positions of the mesh. -/
theorem mem_ends {e : (Nat × Nat) × (Nat × Nat)} :
    e ∈ s.ends ↔ e.1 ∈ s.positions ∧ e.2 ∈ s.neighbours e.1 := by
  obtain ⟨p, q⟩ := e
  simp [ends]

theorem mem_positions_of_mem_neighbours (hp : p ∈ s.positions) (hq : q ∈ s.neighbours p) :
    q ∈ s.positions := by
  obtain ⟨hx, hy⟩ := mem_positions.1 hp
  rw [mem_positions]
  rcases mem_neighbours.1 hq with ⟨hrow, -, hlt⟩ | ⟨hcolumn, -, hlt⟩ <;> omega

/-- **A mesh that fits is built**, with exactly the routers and links that it should have. -/
theorem build_isMesh (h : s.Fits) : ∃ t, s.build = .ok t ∧ s.IsMesh t := by
  obtain ⟨t₁, heq₁, hbuilt₁, hrouters₁, hlinks₁⟩ :=
    foldlM_placeRouter h [] (show ∀ p ∈ [] ++ s.positions, p ∈ s.positions from fun _ hp ↦ hp)
      nodup_positions .empty rfl rfl
  have hends : ∀ e ∈ s.ends, e.1 ∈ s.positions ∧ e.2 ∈ s.positions := fun e he ↦
    have ⟨hp, hq⟩ := mem_ends.1 he
    ⟨hp, mem_positions_of_mem_neighbours hp hq⟩
  obtain ⟨t₂, heq₂, hbuilt₂, hrouters₂, hlinks₂⟩ := foldlM_connect hends hbuilt₁ hrouters₁
  refine ⟨t₂, ?_, hbuilt₂, hrouters₂.trans hrouters₁, by simpa [hlinks₁] using hlinks₂⟩
  rw [build, if_pos h, additions, List.foldlM_append, heq₁, Attempt.ok_bind, heq₂]

/-- A mesh is only built if it fits. -/
theorem fits_of_build (h : s.build = .ok t) : s.Fits := by
  by_contra hfits
  rw [build, if_neg hfits] at h
  cases h

/-- What was built is the mesh. -/
theorem isMesh_of_build (h : s.build = .ok t) : s.IsMesh t := by
  obtain ⟨t', hbuild, hmesh⟩ := build_isMesh (fits_of_build h)
  rw [hbuild] at h
  cases h
  exact hmesh

/-- There are not more routers than words. -/
theorem Fits.count_le (h : s.Fits) : s.width.toNat * s.height.toNat ≤ UInt32.size := by
  rcases h with hw | hh | ⟨hcount, -⟩
  · simp [hw]
  · simp [hh]
  · exact hcount

namespace IsMesh

/-! ### Routers and links -/

theorem size_routers (h : s.IsMesh t) : t.routers.size = s.width.toNat * s.height.toNat := by
  rw [h.routers_eq, List.size_toArray, List.length_map, positions, Topology.length_positions]

/-- The routers are those that stand on the positions. -/
theorem mem_routers_iff (h : s.IsMesh t) {r : Router α} :
    r ∈ t.routers ↔ ∃ p ∈ s.positions, s.router p = r := by
  rw [h.routers_eq, List.mem_toArray, List.mem_map]

theorem getElem?_routers (h : s.IsMesh t) (hp : p ∈ s.positions) :
    t.routers[(s.routerId p).index]? = some (s.router p) := by
  rw [h.routers_eq, List.getElem?_toArray, List.getElem?_map]
  show s.positions[s.number p]?.map s.router = _
  rw [getElem?_positions hp]
  rfl

theorem routerId_lt (h : s.IsMesh t) (hp : p ∈ s.positions) :
    (s.routerId p).index < t.routers.size :=
  (Array.getElem?_eq_some_iff.1 (h.getElem?_routers hp)).1

/-- **Every router of the mesh is found on its tile.** -/
theorem routerAt?_tile (h : s.IsMesh t) (hfits : s.Fits) (hp : p ∈ s.positions) :
    t.routerAt? (s.tile p) = some (s.routerId p) := by
  have hget := getElem?_positions hp
  obtain ⟨hlt, hp'⟩ := List.getElem?_eq_some_iff.1 hget
  have hfind : s.positions.findIdx? (fun q ↦ decide (s.tile q = s.tile p)) = some (s.number p) := by
    refine List.findIdx?_eq_some_iff_getElem.2 ⟨hlt, decide_eq_true (congrArg _ hp'), ?_⟩
    intro j hj htile
    -- positions with the same tile are the same, but none is listed twice
    have hj' := tile_inj hfits (List.getElem_mem _) hp (of_decide_eq_true htile)
    have heq := (nodup_positions.getElem_inj_iff).1 (hj'.trans hp'.symm)
    omega
  rw [Topology.routerAt?, h.routers_eq, List.findIdx?_toArray, List.findIdx?_map]
  show (s.positions.findIdx? fun q ↦ decide (s.tile q = s.tile p)).map Id.mk = _
  rw [hfind]
  rfl

/-- A position is linked to each one next to it. -/
theorem exists_link (h : s.IsMesh t) (hp : p ∈ s.positions) (hq : q ∈ s.positions)
    (hadjacent : Adjacent p q) : ∃ l : LinkId, t.links[l.index]? = some (s.link p q) := by
  have hmem : s.link p q ∈ s.linksOf s.ends := by
    rcases mem_neighbours_or hp hq hadjacent with hnext | hback
    · exact List.mem_flatMap.2 ⟨(p, q), mem_ends.2 ⟨hp, hnext⟩, List.mem_cons_self⟩
    · exact List.mem_flatMap.2 ⟨(q, p), mem_ends.2 ⟨hq, hback⟩, by simp⟩
  rw [← List.mem_toArray, ← h.links_eq] at hmem
  obtain ⟨i, hi⟩ := Array.mem_iff_getElem?.1 hmem
  exact ⟨⟨i⟩, hi⟩

/-- **Every link of the mesh** leads from a position to one next to it. -/
theorem of_link (h : s.IsMesh t) {l : LinkId} {k : Link α} (hl : t.links[l.index]? = some k) :
    ∃ p q, p ∈ s.positions ∧ q ∈ s.positions ∧ Adjacent p q ∧ k = s.link p q := by
  have hmem := Array.mem_of_getElem? hl
  rw [h.links_eq, List.mem_toArray] at hmem
  obtain ⟨⟨p, q⟩, he, hk⟩ := List.mem_flatMap.1 hmem
  obtain ⟨hp, hq⟩ := mem_ends.1 he
  have hq' := mem_positions_of_mem_neighbours hp hq
  have hadjacent := adjacent_of_mem_neighbours hq
  rcases List.mem_pair.1 hk with rfl | rfl
  · exact ⟨p, q, hp, hq', hadjacent, rfl⟩
  · exact ⟨q, p, hq', hp, hadjacent.symm, rfl⟩

theorem closed (h : s.IsMesh t) : t.Closed := by
  intro link hlink
  obtain ⟨i, hi⟩ := Array.mem_iff_getElem?.1 hlink
  obtain ⟨p, q, -, hq, -, rfl⟩ := h.of_link (l := ⟨i⟩) hi
  exact h.routerId_lt hq

/-- **A walk takes at least as many links** as its ends are steps apart, because each link leads one
step on. -/
theorem steps_le_length (h : s.IsMesh t) (hp : p ∈ s.positions) (hq : q ∈ s.positions)
    {route : Route} (hwalk : t.Walk (s.routerId p) route (s.routerId q)) :
    steps p q ≤ route.length := by
  induction route generalizing p with
  | nil =>
    obtain rfl := routerId_inj hp hq (Topology.walk_nil_iff.1 hwalk)
    simp [steps, Nat.dist_self]
  | cons l route ih =>
    obtain ⟨link, hl, hsource, hrest⟩ := Topology.walk_cons_iff.1 hwalk
    obtain ⟨p', next, hp', hnext, hadjacent, rfl⟩ := h.of_link (Attempt.entry_eq_ok_iff.1 hl)
    obtain rfl := routerId_inj hp' hp hsource
    have hrest' : steps next q ≤ route.length := ih hnext hrest
    simp only [steps, Nat.dist, Adjacent, List.length_cons] at hadjacent hrest' ⊢
    omega

end IsMesh

end MeshSettings

end NetOnChip
