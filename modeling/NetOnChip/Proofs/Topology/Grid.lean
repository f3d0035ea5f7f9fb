import NetOnChip.Proofs.Routing.Mesh
import NetOnChip.Proofs.Topology.Linked
import NetOnChip.Proofs.Topology.Lookup

/-!
# A mesh is a grid

A mesh that fits is the grid graph of its columns and rows and nothing else (`build_grid`). The
number of a link is the place of its pair of positions in the list of all that are linked
(`IsMesh.joins_iff`), so there is exactly one link from each position to each one next to it, and
none to any other.
-/

namespace NetOnChip

namespace MeshSettings

variable {α : Type} {s : MeshSettings α} {t : Topology α} {p q : Nat × Nat}

/-! ### The grid graph -/

/-- Every router has a position. -/
theorem exists_routerId_eq {r : RouterId} (hr : r.index < s.width.toNat * s.height.toNat) :
    ∃ p ∈ s.positions, s.routerId p = r := by
  refine ⟨(r.index % s.width.toNat, r.index / s.width.toNat), ?_, ?_⟩
  · exact List.mem_map_of_mem (List.mem_range.2 hr)
  · exact Id.ext (Nat.div_add_mod' ..)

namespace IsMesh

/-- **What a link joins** is the pair of positions with its number. -/
theorem joins_iff (h : s.IsMesh t) (hp : p ∈ s.positions) (hq : q ∈ s.positions) {l : LinkId} :
    t.Joins (s.routerId p) (s.routerId q) l ↔ s.linked[l.index]? = some (p, q) := by
  have hlink : ∀ link, t.link l = .ok link ↔
      ∃ e, s.linked[l.index]? = some e ∧ s.link e.1 e.2 = link := fun link ↦ by
    rw [Topology.link, Attempt.entry_eq_ok_iff, h.links_eq, linksOf_ends, List.getElem?_toArray,
      List.getElem?_map, Option.map_eq_some_iff]
  constructor
  · rintro ⟨link, hl, hsource, hsink⟩
    obtain ⟨e, he, rfl⟩ := (hlink link).1 hl
    obtain ⟨hp', hq', -⟩ := mem_linked.1 (List.mem_of_getElem? he)
    rw [he, ← routerId_inj hp' hp hsource, ← routerId_inj hq' hq hsink]
  · exact fun he ↦ ⟨s.link p q, (hlink _).2 ⟨_, he, rfl⟩, rfl, rfl⟩

/-- **There is exactly one link** from a position to each one next to it. -/
theorem existsUnique_joins (h : s.IsMesh t) (hp : p ∈ s.positions) (hq : q ∈ s.positions)
    (hadjacent : Adjacent p q) : ∃! l, t.Joins (s.routerId p) (s.routerId q) l := by
  obtain ⟨i, hi, hget⟩ := List.mem_iff_getElem.1 (mem_linked.2 ⟨hp, hq, hadjacent⟩)
  have hi' : s.linked[i]? = some (p, q) := hget ▸ List.getElem?_eq_getElem hi
  refine ⟨⟨i⟩, (h.joins_iff hp hq).2 hi', fun l hl ↦ Id.ext ?_⟩
  have hsame := hi'.trans ((h.joins_iff hp hq).1 hl).symm
  exact ((List.getElem?_inj hi nodup_linked).1 hsame).symm

/-- **There is none to any other position.** -/
theorem adjacent_of_joins (h : s.IsMesh t) (hp : p ∈ s.positions) (hq : q ∈ s.positions)
    {l : LinkId} (hl : t.Joins (s.routerId p) (s.routerId q) l) : Adjacent p q :=
  (mem_linked.1 (List.mem_of_getElem? ((h.joins_iff hp hq).1 hl))).2.2

end IsMesh

/-- **A mesh that fits is built, and it is the grid graph**:

1. there is one router for each column and row, numbered row by row, on the lowest layer and on the
   tile that lies as many times the spacing away from the first one, where no spacing counts as one;
2. from one router to another there is exactly one link if they are next to each other in a row or
   in a column, and none otherwise;
3. there are no other links: each one joins two such routers, with the bandwidth and the latency of
   the settings;
4. so the number of links is twice the number of neighbours in rows and in columns;
5. every router can be reached from every router.

A mesh without columns or without rows has no routers and no links. -/
theorem build_grid (h : s.Fits) :
    ∃ t, s.build = .ok t ∧
      (t.routers.size = s.width.toNat * s.height.toNat ∧
        ∀ x < s.width.toNat, ∀ y < s.height.toNat,
          ∃ router, t.router ⟨y * s.width.toNat + x⟩ = .ok router ∧
            router.tile.x.toNat = x * max s.spacing.toNat 1 ∧
            router.tile.y.toNat = y * max s.spacing.toNat 1 ∧ router.tile.layer = 0) ∧
      (∀ p ∈ s.positions, ∀ q ∈ s.positions,
        (Adjacent p q → ∃! l, t.Joins (s.routerId p) (s.routerId q) l) ∧
        (¬ Adjacent p q → ∀ l, ¬ t.Joins (s.routerId p) (s.routerId q) l)) ∧
      (∀ link ∈ t.links, link.bandwidth = s.linkBandwidth ∧ link.latency = s.linkLatency ∧
        ∃ p ∈ s.positions, ∃ q ∈ s.positions,
          Adjacent p q ∧ link.source = s.routerId p ∧ link.sink = s.routerId q) ∧
      t.links.size =
        2 * ((s.width.toNat - 1) * s.height.toNat + s.width.toNat * (s.height.toNat - 1)) ∧
      ∀ a b : RouterId, a.index < t.routers.size → b.index < t.routers.size →
        ∃ route, t.Walk a route b := by
  obtain ⟨t, hbuild, hmesh⟩ := build_isMesh h
  refine ⟨t, hbuild, ⟨hmesh.size_routers, fun x hx y hy ↦ ?_⟩, fun p hp q hq ↦ ?_,
    fun link hlink ↦ ?_, hmesh.size_links, fun a b ha hb ↦ ?_⟩
  · have hp : (x, y) ∈ s.positions := mem_positions.2 ⟨hx, hy⟩
    obtain ⟨hcolumn, hrow⟩ := toNat_tile h hp
    have hrouter : t.router (s.routerId (x, y)) = .ok (s.router (x, y)) :=
      Attempt.entry_eq_ok_iff.2 (hmesh.getElem?_routers hp)
    exact ⟨s.router (x, y), hrouter, hcolumn, hrow, rfl⟩
  · exact ⟨hmesh.existsUnique_joins hp hq,
      fun hfar _ hl ↦ hfar (hmesh.adjacent_of_joins hp hq hl)⟩
  · obtain ⟨i, hi⟩ := Array.mem_iff_getElem?.1 hlink
    obtain ⟨p, q, hp, hq, hadjacent, rfl⟩ := hmesh.of_link (l := ⟨i⟩) hi
    exact ⟨rfl, rfl, p, hp, q, hq, hadjacent, rfl, rfl⟩
  · rw [hmesh.size_routers] at ha hb
    obtain ⟨p, hp, rfl⟩ := exists_routerId_eq ha
    obtain ⟨q, hq, rfl⟩ := exists_routerId_eq hb
    obtain ⟨route, -, hwalk, -⟩ := hmesh.exists_route_fewestHops h hp hq
    exact ⟨route, hwalk⟩

/-- The small mesh has six routers and fourteen links. The first routers of its two rows are linked,
but the end of the first row is not linked to the start of the second one, although their numbers
are next to each other. -/
theorem build_grid_small :
    small.Fits ∧ ∃ t, small.build = .ok t ∧ t.routers.size = 6 ∧ t.links.size = 14 ∧
      (∃ router, t.router ⟨5⟩ = .ok router ∧ router.tile.x.toNat = 4 ∧ router.tile.y.toNat = 2) ∧
      (∃! l, t.Joins ⟨0⟩ ⟨3⟩ l) ∧ (∀ l, ¬ t.Joins ⟨2⟩ ⟨3⟩ l) ∧ ∃ route, t.Walk ⟨5⟩ route ⟨0⟩ := by
  have hfits : small.Fits := by decide
  obtain ⟨t, hbuild, ⟨hsize, hrouters⟩, hjoins, -, hlinks, hwalk⟩ := build_grid hfits
  have hsize' : t.routers.size = 6 := hsize
  obtain ⟨router, hrouter, hx, hy, -⟩ := hrouters 2 (by decide) 1 (by decide)
  have hcorner : (0, 0) ∈ small.positions := by decide
  have hbelow : (0, 1) ∈ small.positions := by decide
  have hend : (2, 0) ∈ small.positions := by decide
  refine ⟨hfits, t, hbuild, hsize', hlinks, ⟨router, hrouter, hx, hy⟩, ?_, ?_, ?_⟩
  · exact (hjoins _ hcorner _ hbelow).1 (.inr ⟨rfl, .inl rfl⟩)
  · exact (hjoins _ hend _ hbelow).2 (by simp [Adjacent])
  · exact hwalk _ _ (by simp [hsize']) (by simp [hsize'])

end MeshSettings

end NetOnChip
