import NetOnChip.Proofs.Layout
import NetOnChip.Proofs.Random.Stream
import NetOnChip.Proofs.Topology.Lookup
import NetOnChip.Proofs.Topology.Mesh

/-!
# Free tiles

The free tiles of a grid are counted by taking the number of routers on it away from the number of
its tiles. The count is exact for every topology that was built (`Built.freeTileCount_eq`), because
no two routers are on one tile: the tiles of the routers on the grid are, in another order, the
tiles of the grid that have a router. So a search for a free tile is only begun if there is one to
be found, and every free tile ends the search if it is drawn (`Built.randomFreeTile_exact`).
-/

namespace NetOnChip

/-! ### The tiles of a grid -/

/-- The tiles of a grid of one layer, row by row. -/
def Tile.grid (width height : UInt32) : List Tile :=
  (Topology.positions width.toNat height.toNat).map fun p ↦ ⟨.ofNat p.1, .ofNat p.2, 0⟩

namespace Tile

variable {width height : UInt32} {tile : Tile} {p : Nat × Nat}

theorem toNat_ofNat_of_mem (hp : p ∈ Topology.positions width.toNat height.toNat) :
    (UInt32.ofNat p.1).toNat = p.1 ∧ (UInt32.ofNat p.2).toNat = p.2 := by
  obtain ⟨hx, hy⟩ := Topology.mem_positions.1 hp
  exact ⟨UInt32.toNat_ofNat_of_lt' (hx.trans width.toNat_lt_size),
    UInt32.toNat_ofNat_of_lt' (hy.trans height.toNat_lt_size)⟩

theorem mem_grid : tile ∈ grid width height ↔
    tile.x < width ∧ tile.y < height ∧ tile.layer = 0 := by
  rw [grid, List.mem_map]
  constructor
  · rintro ⟨p, hp, rfl⟩
    obtain ⟨hx, hy⟩ := toNat_ofNat_of_mem hp
    rw [UInt32.lt_iff_toNat_lt, UInt32.lt_iff_toNat_lt, hx, hy]
    obtain ⟨hcolumn, hrow⟩ := Topology.mem_positions.1 hp
    exact ⟨hcolumn, hrow, rfl⟩
  · rintro ⟨hx, hy, hlayer⟩
    refine ⟨(tile.x.toNat, tile.y.toNat), Topology.mem_positions.2 ⟨hx, hy⟩, ?_⟩
    simp only [UInt32.ofNat_toNat, ← hlayer]

theorem length_grid (width height : UInt32) :
    (grid width height).length = width.toNat * height.toNat := by
  rw [grid, List.length_map, Topology.length_positions]

theorem nodup_grid (width height : UInt32) : (grid width height).Nodup := by
  refine List.Nodup.map_on (fun p hp q hq h ↦ ?_) (Topology.nodup_positions ..)
  obtain ⟨hx, hy⟩ := toNat_ofNat_of_mem hp
  obtain ⟨hx', hy'⟩ := toNat_ofNat_of_mem hq
  have hcolumn : UInt32.ofNat p.1 = UInt32.ofNat q.1 := congrArg Tile.x h
  have hrow : UInt32.ofNat p.2 = UInt32.ofNat q.2 := congrArg Tile.y h
  exact Prod.ext (by rw [← hx, hcolumn, hx']) (by rw [← hy, hrow, hy'])

end Tile

namespace Topology

/-! ### Counting free tiles -/

variable {σ α : Type} {t : Topology α} {width height : UInt32} {tile : Tile}
  {chance : Chance σ α}

/-- The tiles of a grid that have no router, row by row. -/
def freeTiles (t : Topology α) (width height : UInt32) : List Tile :=
  (Tile.grid width height).filter fun tile ↦ t.routerAt? tile = none

theorem mem_freeTiles : tile ∈ t.freeTiles width height ↔ t.IsFree width height tile := by
  rw [freeTiles, List.mem_filter, Tile.mem_grid, decide_eq_true_iff]
  exact ⟨fun ⟨⟨hx, hy, hlayer⟩, hrouter⟩ ↦ ⟨hx, hy, hlayer, hrouter⟩,
    fun h ↦ ⟨⟨h.column, h.row, h.layer⟩, h.noRouter⟩⟩

theorem nodup_freeTiles (t : Topology α) (width height : UInt32) :
    (t.freeTiles width height).Nodup :=
  (Tile.nodup_grid ..).filter _

namespace Built

/-- **No two routers are on one tile.** -/
theorem nodup_tiles (ht : t.Built) : (t.routers.toList.map Router.tile).Nodup := by
  rw [List.nodup_iff_injective_getElem]
  intro ⟨i, hi⟩ ⟨j, hj⟩ h
  rw [List.length_map, Array.length_toList] at hi hj
  simp only [List.getElem_map, Array.getElem_toList] at h
  have hfound : ∀ k (hk : k < t.routers.size), t.routerAt? t.routers[k].tile = some ⟨k⟩ :=
    fun k hk ↦ ht.routerAt?_eq_some_iff.2
      ⟨_, Attempt.entry_eq_ok_iff.2 (Array.getElem?_eq_getElem hk), rfl⟩
  have hsame := (hfound i hi).symm.trans ((congrArg t.routerAt? h).trans (hfound j hj))
  exact Fin.ext (congrArg Id.index (Option.some.inj hsame))

/-- **The routers on a grid** are as many as its tiles that are not free. -/
theorem routersOnGrid_eq (ht : t.Built) (width height : UInt32) :
    t.routersOnGrid width height =
      ((Tile.grid width height).filter fun tile ↦ !decide (t.routerAt? tile = none)).length := by
  have hmap : t.routersOnGrid width height = ((t.routers.toList.map Router.tile).filter fun tile ↦
      tile.x < width && tile.y < height && tile.layer = 0).length := by
    rw [List.filter_map, List.length_map, ← List.countP_eq_length_filter]
    rfl
  have hrouter : ∀ tile, t.routerAt? tile ≠ none ↔ tile ∈ t.routers.toList.map Router.tile := by
    simp [routerAt?_eq_none_iff]
  rw [hmap]
  refine List.Perm.length_eq ((List.perm_ext_iff_of_nodup (ht.nodup_tiles.filter _)
    ((Tile.nodup_grid ..).filter _)).2 fun tile ↦ ?_)
  rw [List.mem_filter, List.mem_filter, Tile.mem_grid, ← hrouter]
  simp [and_comm, and_assoc]

/-- **The count of free tiles is exact**, and the routers never outnumber the tiles. -/
theorem freeTileCount_eq (ht : t.Built) (width height : UInt32) :
    t.freeTileCount width height = (t.freeTiles width height).length ∧
      t.routersOnGrid width height ≤ width.toNat * height.toNat := by
  have hsplit : (Tile.grid width height).length =
      (t.freeTiles width height).length + t.routersOnGrid width height := by
    rw [ht.routersOnGrid_eq]
    exact List.length_eq_length_filter_add _
  rw [Tile.length_grid] at hsplit
  rw [freeTileCount, hsplit]
  omega

/-- **The count is zero exactly if no tile is free.** -/
theorem freeTileCount_eq_zero_iff (ht : t.Built) (width height : UInt32) :
    t.freeTileCount width height = 0 ↔ ∀ tile, ¬ t.IsFree width height tile := by
  rw [(ht.freeTileCount_eq width height).1, List.length_eq_zero_iff, List.eq_nil_iff_forall_not_mem]
  simp only [mem_freeTiles]

end Built

/-! ### Searching -/

namespace IsFree

/-- Every free tile is within reach of the draws. -/
theorem lt_max_one (h : t.IsFree width height tile) :
    tile.x.toNat < (max width 1).toNat ∧ tile.y.toNat < (max height 1).toNat := by
  have hcolumn := UInt32.lt_iff_toNat_lt.1 h.column
  have hrow := UInt32.lt_iff_toNat_lt.1 h.row
  rw [toNat_max_one, toNat_max_one]
  omega

/-- **A search ends with the first free tile that is drawn.** -/
theorem searchFreeTile_eq (h : t.IsFree width height tile) (count : Nat) {s s₁ s₂ : σ}
    (hx : chance.below (max width 1).toNat s = .ok (tile.x.toNat, s₁))
    (hy : chance.below (max height 1).toNat s₁ = .ok (tile.y.toNat, s₂)) :
    t.searchFreeTile chance width height (count + 1) s = .ok (tile, s₂) := by
  have htile : (⟨.ofNat tile.x.toNat, .ofNat tile.y.toNat, 0⟩ : Tile) = tile := by
    simp only [UInt32.ofNat_toNat, ← h.layer]
  rw [searchFreeTile, Draw.bind_eq_of_eq_ok hx, Draw.bind_eq_of_eq_ok hy]
  simp only [htile, h.noRouter]
  rfl

end IsFree

/-- **Counting free tiles is exact, and it guards the search.** For every topology that was built
and every grid, empty ones included:

1. the count is the number of the tiles of the grid, on the lowest layer, that have no router, and
   nothing is cut off where the routers are subtracted;
2. if there is no such tile then none is answered, and nothing is drawn;
3. if there is one then the answer is left to a search, and drawing the coordinates of any free
   tile, which are below the bounds of the draws, ends the search at once;
4. whatever is drawn, none is answered only if there is no free tile, and a tile that is answered is
   on the grid, on the lowest layer, and has no router. -/
theorem Built.randomFreeTile_exact (ht : t.Built) (hc : chance.Indexes) (width height : UInt32) :
    ((t.freeTiles width height).Nodup ∧
      (∀ tile, tile ∈ t.freeTiles width height ↔
        (tile.x < width ∧ tile.y < height ∧ tile.layer = 0) ∧ t.routerAt? tile = none) ∧
      t.freeTileCount width height = (t.freeTiles width height).length ∧
      t.routersOnGrid width height ≤ width.toNat * height.toNat) ∧
    ((∀ tile, ¬ t.IsFree width height tile) →
      ∀ s, t.randomFreeTile chance width height s = .ok (none, s)) ∧
    ((∃ tile, t.IsFree width height tile) →
      t.randomFreeTile chance width height =
          some <$> t.searchFreeTile chance width height chance.patience ∧
        ∀ tile, t.IsFree width height tile →
          tile.x.toNat < (max width 1).toNat ∧ tile.y.toNat < (max height 1).toNat ∧
          ∀ count s s₁ s₂, chance.below (max width 1).toNat s = .ok (tile.x.toNat, s₁) →
            chance.below (max height 1).toNat s₁ = .ok (tile.y.toNat, s₂) →
            t.searchFreeTile chance width height (count + 1) s = .ok (tile, s₂)) ∧
    Draw.Completes (fun found ↦ (found = none ↔ ∀ tile, ¬ t.IsFree width height tile) ∧
        ∀ tile ∈ found, t.IsFree width height tile)
      (t.randomFreeTile chance width height) := by
  have hzero := ht.freeTileCount_eq_zero_iff width height
  refine ⟨⟨nodup_freeTiles .., fun tile ↦ ?_, ht.freeTileCount_eq ..⟩, fun hnone s ↦ ?_,
    fun ⟨tile, htile⟩ ↦ ⟨?_, fun tile htile ↦ ?_⟩, ?_⟩
  · rw [freeTiles, List.mem_filter, Tile.mem_grid, decide_eq_true_iff]
  · rw [randomFreeTile, if_pos (hzero.2 hnone)]
    rfl
  · rw [randomFreeTile, if_neg fun hcount ↦ hzero.1 hcount tile htile]
    rfl
  · exact ⟨htile.lt_max_one.1, htile.lt_max_one.2, fun count _ _ _ ↦ htile.searchFreeTile_eq count⟩
  · rw [← hzero]
    exact t.randomFreeTile_completes hc width height

/-- A router in the corner of a grid, one above it on another layer, and one far away. -/
def scattered : Topology Float where
  routers := #[⟨0, ⟨0, 0, 0⟩, 0.0⟩, ⟨1, ⟨0, 0, 1⟩, 0.0⟩, ⟨2, ⟨5, 5, 0⟩, 0.0⟩]
  links := #[]
  departures := #[[], [], []]

theorem built_scattered : scattered.Built :=
  .addRouter (.addRouter (.addRouter .empty (addRouter_of_free 0 0.0 (by decide +kernel)))
    (addRouter_of_free 1 0.0 (by decide +kernel))) (addRouter_of_free 2 0.0 (by decide +kernel))

/-- On a grid of two tiles, only the router in the corner takes one. The other tile is found in a
stream of random words; on a grid of one tile there is nothing to be found. -/
theorem randomFreeTile_exact_scattered :
    scattered.Built ∧ (Chance.ofStream 50).Indexes ∧ scattered.freeTileCount 2 1 = 1 ∧
      (∃ s, scattered.randomFreeTile (.ofStream 50) 2 1 (.ofSeed 1) = .ok (some ⟨1, 0, 0⟩, s)) ∧
      ∀ s, scattered.randomFreeTile (.ofStream 50) 1 1 s = .ok (none, s) := by
  obtain ⟨⟨-, -, hcount, -⟩, -, -, hfree⟩ :=
    built_scattered.randomFreeTile_exact (Chance.indexes_ofStream 50) 2 1
  have hone : scattered.freeTiles 2 1 = [⟨1, 0, 0⟩] := by decide +kernel
  obtain ⟨⟨found, s⟩, hrun, hnone, htile⟩ :=
    hfree (.ofSeed 1) (by decide +kernel)
  refine ⟨built_scattered, Chance.indexes_ofStream 50, hcount.trans (by rw [hone]; rfl), ⟨s, ?_⟩,
    ?_⟩
  · match found with
    | none => exact absurd (mem_freeTiles.1 (hone ▸ List.mem_singleton_self _)) (hnone.1 rfl _)
    | some tile =>
      have hmem := mem_freeTiles.2 (htile tile rfl)
      rw [hone, List.mem_singleton] at hmem
      rw [hrun, hmem]
  · refine (built_scattered.randomFreeTile_exact (Chance.indexes_ofStream 50) 1 1).2.1
      fun tile h ↦ ?_
    have hmem := mem_freeTiles.2 h
    have hempty : scattered.freeTiles 1 1 = [] := by decide +kernel
    rw [hempty] at hmem
    cases hmem

end Topology

end NetOnChip
