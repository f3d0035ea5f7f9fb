import Mathlib.Data.List.Nodup
import Mathlib.Data.List.Perm.Basic
import Mathlib.Logic.Equiv.Basic
import NetOnChip.Benchmark
import NetOnChip.Proofs.Placement
import NetOnChip.Proofs.Random.Completes

/-!
# Placements that keep to a layout

A placement keeps to a layout (`Layout.Holds`) if the router blocks are on the routers, one on each,
and every logic block is on a free tile of the grid. Exchanging two router blocks keeps it that way
(`Holds.swap`), and so does taking a logic block to another free tile (`Holds.relocate`). Logic
blocks may share a tile.
-/

namespace NetOnChip

variable {σ α : Type}

/-! ### Free tiles -/

namespace Topology

/-- A tile of a grid of one layer on which no router stands. -/
structure IsFree (t : Topology α) (width height : UInt32) (tile : Tile) : Prop where
  /-- The column is on the grid. -/
  column : tile.x < width
  /-- The row is on the grid. -/
  row : tile.y < height
  /-- The tile is on the lowest layer. -/
  layer : tile.layer = 0
  /-- No router stands there. -/
  noRouter : t.routerAt? tile = none

variable {chance : Chance σ α}

theorem toNat_max_one (n : UInt32) : (max n 1).toNat = max n.toNat 1 := by
  show (if n ≤ 1 then 1 else n).toNat = _
  split <;> rename_i h <;> rw [UInt32.le_iff_toNat_le] at h
  · exact (Nat.max_eq_right h).symm
  · exact (Nat.max_eq_left (Nat.le_of_not_le h)).symm

/-- A coordinate that was drawn is on the grid, if the grid has any. -/
theorem ofNat_lt {n : UInt32} (hn : n ≠ 0) {k : Nat} (hk : k < (max n 1).toNat) :
    UInt32.ofNat k < n := by
  have hpos : n.toNat ≠ 0 := fun e ↦ hn (UInt32.toNat_inj.1 e)
  have hlt := n.toNat_lt_size
  rw [toNat_max_one] at hk
  rw [UInt32.lt_iff_toNat_lt, UInt32.toNat_ofNat_of_lt' (by omega)]
  omega

/-- **A tile that is found is free.** -/
theorem searchFreeTile_completes (hc : chance.Indexes) (t : Topology α) {width height : UInt32}
    (hwidth : width ≠ 0) (hheight : height ≠ 0) (count : Nat) :
    Draw.Completes (t.IsFree width height) (t.searchFreeTile chance width height count) := by
  have hpos : ∀ n : UInt32, 0 < (max n 1).toNat := fun n ↦ by
    rw [toNat_max_one]
    omega
  induction count with
  | zero => exact Draw.completes_exhausted
  | succ count ih =>
    refine (hc.below (hpos width)).bind fun x hx ↦ (hc.below (hpos height)).bind fun y hy ↦ ?_
    cases hrouter : t.routerAt? ⟨.ofNat x, .ofNat y, 0⟩ with
    | none =>
      simp only [hrouter]
      exact Draw.completes_pure ⟨ofNat_lt hwidth hx, ofNat_lt hheight hy, rfl, hrouter⟩
    | some r =>
      simp only [hrouter]
      exact ih

/-- A random free tile is free, and there is one if the number of free tiles is not zero. -/
theorem randomFreeTile_completes (hc : chance.Indexes) (t : Topology α) (width height : UInt32) :
    Draw.Completes (fun found ↦ (found = none ↔ t.freeTileCount width height = 0) ∧
        ∀ tile ∈ found, t.IsFree width height tile)
      (t.randomFreeTile chance width height) := by
  rw [randomFreeTile]
  split
  · rename_i hcount
    exact Draw.completes_pure ⟨iff_of_true rfl hcount, fun _ h ↦ nomatch h⟩
  · rename_i hcount
    have hne : width ≠ 0 ∧ height ≠ 0 := by
      constructor <;> rintro rfl <;> exact hcount (by simp [freeTileCount])
    refine (t.searchFreeTile_completes hc hne.1 hne.2 _).bind fun tile htile ↦
      Draw.completes_pure ⟨iff_of_false nofun hcount, fun _ h ↦ ?_⟩
    cases h
    exact htile

end Topology

/-! ### Placements -/

namespace Layout

/-- No block is listed twice as a router block, and none of them is a logic block. -/
structure Distinct (l : Layout) : Prop where
  /-- Router blocks are different. -/
  nodup : l.routerBlocks.Nodup
  /-- They are no logic blocks. -/
  disjoint : ∀ b ∈ l.routerBlocks, b ∉ l.logicBlocks

/-- A placement with the router blocks on the routers and the logic blocks on free tiles. -/
structure Holds (l : Layout) (t : Topology α) (p : Placement) : Prop where
  /-- There is one router block on each router. -/
  routers : (l.routerBlocks.map p.tile?).Perm (t.routers.toList.map fun r ↦ some r.tile)
  /-- Logic blocks are on free tiles of the grid. -/
  logic : ∀ b ∈ l.logicBlocks, ∃ tile, p.tile? b = some tile ∧ t.IsFree l.width l.height tile

variable {l : Layout} {t : Topology α} {p : Placement} {a b : BlockId}

namespace Holds

/-- Every router block is on a router. -/
theorem exists_router (h : l.Holds t p) (hb : b ∈ l.routerBlocks) :
    ∃ r ∈ t.routers, p.tile? b = some r.tile := by
  obtain ⟨r, hr, hrb⟩ := List.mem_map.1 (h.routers.mem_iff.1 (List.mem_map_of_mem hb))
  exact ⟨r, Array.mem_toList_iff.1 hr, hrb.symm⟩

/-- **Two router blocks may be exchanged.** -/
theorem swap (h : l.Holds t p) (hl : l.Distinct) (ha : a ∈ l.routerBlocks)
    (hb : b ∈ l.routerBlocks) {tileA tileB : Tile} (hA : p.tile? a = some tileA)
    (hB : p.tile? b = some tileB) : l.Holds t (p.apply [⟨a, tileA, tileB⟩, ⟨b, tileB, tileA⟩]) := by
  have htile : (p.apply [⟨a, tileA, tileB⟩, ⟨b, tileB, tileA⟩]).tile? =
      fun c ↦ p.tile? (Equiv.swap a b c) := funext (Placement.tile?_apply_swap hA hB)
  have hmem : ∀ c, Equiv.swap a b c ∈ l.routerBlocks ↔ c ∈ l.routerBlocks := by
    intro c
    rw [Equiv.swap_apply_def]
    split_ifs <;> simp_all
  -- the blocks are the same in another order, so their tiles are as well
  have hperm : (l.routerBlocks.map (Equiv.swap a b)).Perm l.routerBlocks := by
    refine (List.perm_ext_iff_of_nodup (hl.nodup.map (Equiv.swap a b).injective) hl.nodup).2 ?_
    intro c
    rw [List.mem_map]
    refine ⟨fun ⟨d, hd, hdc⟩ ↦ hdc ▸ (hmem d).2 hd, fun hc ↦ ⟨_, (hmem c).2 hc, ?_⟩⟩
    exact Equiv.swap_apply_self a b c
  refine ⟨?_, fun c hc ↦ ?_⟩
  · have hsame : l.routerBlocks.map (fun c ↦ p.tile? (Equiv.swap a b c)) =
        (l.routerBlocks.map (Equiv.swap a b)).map p.tile? := by
      rw [List.map_map]
      rfl
    rw [htile, hsame]
    exact (hperm.map p.tile?).trans h.routers
  · have hca : c ≠ a := fun e ↦ hl.disjoint a ha (e ▸ hc)
    have hcb : c ≠ b := fun e ↦ hl.disjoint b hb (e ▸ hc)
    rw [htile]
    show ∃ tile, p.tile? (Equiv.swap a b c) = some tile ∧ _
    rw [Equiv.swap_apply_of_ne_of_ne hca hcb]
    exact h.logic c hc

/-- **A logic block may be taken to a free tile.** -/
theorem relocate (h : l.Holds t p) (hl : l.Distinct) (hb : b ∈ l.logicBlocks) {tile : Tile}
    (htile : t.IsFree l.width l.height tile) : l.Holds t (p.set b tile) := by
  refine ⟨?_, fun c hc ↦ ?_⟩
  · have hsame : l.routerBlocks.map (p.set b tile).tile? = l.routerBlocks.map p.tile? := by
      refine List.map_congr_left fun c hc ↦ ?_
      rw [Placement.tile?_set, if_neg fun e : c = b ↦ hl.disjoint c hc (e ▸ hb)]
    rw [hsame]
    exact h.routers
  · rw [Placement.tile?_set]
    split
    · exact ⟨tile, rfl, htile⟩
    · exact h.logic c hc

end Holds

end Layout

end NetOnChip
