import NetOnChip.Proofs.Benchmark.Routed

/-!
# The grid of a mesh

The grid of a benchmark reaches from the first router of the mesh to the last one, so it has one
column more than the coordinate of the last column of routers says, and one row more than that of
the last row. A mesh may fit into words where its grid does not (`MeshSettings.GridFits`): that is
so if a router has the last coordinate that a word can hold (`MeshSettings.IsMesh.gridFits_iff`),
and for meshes that are too wide or too high but have no routers.

If the grid fits then all routers are on it (`MeshSettings.IsMesh.mem_grid`), and it is no larger
than that takes: the last router is in its corner (`MeshSettings.IsMesh.exists_last`). Benchmarks
have this grid if it fits, and otherwise none is generated (`Benchmark.generate_covers`).
-/

namespace NetOnChip

variable {σ α : Type}

/-- If all routers are on a grid then all are counted. -/
theorem Topology.routersOnGrid_eq_size {t : Topology α} {width height : UInt32}
    (h : ∀ r ∈ t.routers, r.tile ∈ Tile.grid width height) :
    t.routersOnGrid width height = t.routers.size := by
  rw [routersOnGrid, ← Array.length_toList, List.countP_eq_length]
  intro r hr
  simpa [Tile.mem_grid, and_assoc] using h r (Array.mem_toList_iff.1 hr)

namespace MeshSettings

/-! ### The extents of the grid -/

variable {s : MeshSettings α} {t : Topology α} {r : Router α} {width height : UInt32}

theorem extent_eq_crash_iff {n : UInt32} :
    s.extent n = Attempt.crash .overflow ↔ UInt32.size ≤ s.reach n + 1 :=
  Attempt.word_eq_crash_iff

/-- **A grid that fits has its extents.** -/
theorem GridFits.exists_extents (h : s.GridFits) :
    ∃ width height, s.gridWidth = .ok width ∧ s.gridHeight = .ok height := by
  obtain ⟨width, hwidth, -⟩ := Attempt.yields_word h.1
  obtain ⟨height, hheight, -⟩ := Attempt.yields_word h.2
  exact ⟨width, height, hwidth, hheight⟩

namespace IsMesh

/-- No router is farther away than the mesh reaches. -/
theorem tile_le (h : s.IsMesh t) (hfits : s.Fits) (hr : r ∈ t.routers) :
    r.tile.x.toNat ≤ s.reach s.width ∧ r.tile.y.toNat ≤ s.reach s.height := by
  obtain ⟨p, hp, rfl⟩ := h.mem_routers_iff.1 hr
  obtain ⟨hx, hy⟩ := toNat_tile hfits hp
  obtain ⟨hcolumn, hrow⟩ := mem_positions.1 hp
  exact ⟨hx.trans_le (Nat.mul_le_mul_right _ (Nat.le_sub_one_of_lt hcolumn)),
    hy.trans_le (Nat.mul_le_mul_right _ (Nat.le_sub_one_of_lt hrow))⟩

/-- **The last router** is as far away as the mesh reaches. -/
theorem exists_last (h : s.IsMesh t) (hfits : s.Fits) (hsize : 0 < t.routers.size) :
    ∃ r ∈ t.routers, r.tile.x.toNat = s.reach s.width ∧ r.tile.y.toNat = s.reach s.height := by
  rw [h.size_routers] at hsize
  have hlast : (s.width.toNat - 1, s.height.toNat - 1) ∈ s.positions :=
    mem_positions.2 ⟨Nat.sub_one_lt (Nat.pos_of_mul_pos_right hsize).ne',
      Nat.sub_one_lt (Nat.pos_of_mul_pos_left hsize).ne'⟩
  exact ⟨_, h.mem_routers_iff.2 ⟨_, hlast, rfl⟩, toNat_tile hfits hlast⟩

/-- **The grid of a mesh with routers fits** if none of them has the last coordinate there is. -/
theorem gridFits_iff (h : s.IsMesh t) (hfits : s.Fits) (hsize : 0 < t.routers.size) :
    s.GridFits ↔ ∀ r ∈ t.routers,
      r.tile.x.toNat + 1 < UInt32.size ∧ r.tile.y.toNat + 1 < UInt32.size := by
  constructor
  · rintro ⟨hcolumns, hrows⟩ r hr
    obtain ⟨hx, hy⟩ := h.tile_le hfits hr
    exact ⟨(Nat.succ_le_succ hx).trans_lt hcolumns, (Nat.succ_le_succ hy).trans_lt hrows⟩
  · intro hall
    obtain ⟨r, hr, hx, hy⟩ := h.exists_last hfits hsize
    exact ⟨hx ▸ (hall r hr).1, hy ▸ (hall r hr).2⟩

/-- **All routers are on the grid.** -/
theorem mem_grid (h : s.IsMesh t) (hfits : s.Fits) (hwidth : s.gridWidth = .ok width)
    (hheight : s.gridHeight = .ok height) (hr : r ∈ t.routers) :
    r.tile ∈ Tile.grid width height := by
  obtain ⟨hx, hy⟩ := h.tile_le hfits hr
  have hcolumn : r.tile.x.toNat < width.toNat :=
    Attempt.word_eq_ok_iff.1 hwidth ▸ Nat.lt_succ_of_le hx
  have hrow : r.tile.y.toNat < height.toNat :=
    Attempt.word_eq_ok_iff.1 hheight ▸ Nat.lt_succ_of_le hy
  have hlayer : r.tile.layer = 0 := by
    obtain ⟨p, -, rfl⟩ := h.mem_routers_iff.1 hr
    rfl
  exact Tile.mem_grid.2 ⟨UInt32.lt_iff_toNat_lt.2 hcolumn, UInt32.lt_iff_toNat_lt.2 hrow, hlayer⟩

end IsMesh

end MeshSettings

/-! ### Benchmarks -/

namespace Benchmark

variable [Scalar α] {chance : Chance σ α} {mesh : MeshSettings α} {s : TrafficSettings α}
  {t : Topology α} {b : Benchmark α}

/-- **A mesh whose grid does not fit** is built in vain, before anything is drawn. -/
theorem generate_overflows (hbuild : mesh.build = .ok t) (hgrid : ¬ mesh.GridFits) (source : σ) :
    generate chance mesh s source = Attempt.crash .overflow := by
  unfold generate
  rw [Draw.lift_bind_of_eq_ok hbuild]
  by_cases hcolumns : mesh.reach mesh.width + 1 < UInt32.size
  · obtain ⟨width, hwidth, -⟩ : mesh.gridWidth.Yields _ := Attempt.yields_word hcolumns
    have hheight : mesh.gridHeight = Attempt.crash .overflow :=
      MeshSettings.extent_eq_crash_iff.2
        (Nat.le_of_not_lt fun hrows ↦ hgrid ⟨hcolumns, hrows⟩)
    rw [Draw.lift_bind_of_eq_ok hwidth, Draw.lift_bind_of_eq_error hheight]
    rfl
  · have hwidth : mesh.gridWidth = Attempt.crash .overflow :=
      MeshSettings.extent_eq_crash_iff.2 (Nat.le_of_not_lt hcolumns)
    rw [Draw.lift_bind_of_eq_error hwidth]
    rfl

/-- A benchmark that is generated has the mesh and the grid of the settings. -/
theorem generate_promises_grid :
    Draw.Promises (fun b ↦ mesh.build = .ok b.topology ∧ mesh.gridWidth = .ok b.layout.width ∧
      mesh.gridHeight = .ok b.layout.height) (generate chance mesh s) := by
  refine (Draw.promises_lift fun _ ↦ id).bind fun t ht ↦ ?_
  refine (Draw.promises_lift fun _ ↦ id).bind fun width hwidth ↦ ?_
  refine (Draw.promises_lift fun _ ↦ id).bind fun height hheight ↦ ?_
  exact Draw.promises_bind fun _ ↦ Draw.promises_bind fun _ ↦ Draw.promises_bind fun _ ↦
    Draw.promises_pure ⟨ht, hwidth, hheight⟩

/-- Every block that is placed is on the grid. -/
theorem Sound.mem_grid (h : b.Sound mesh s) {c : BlockId} {tile : Tile}
    (hc : b.placement.tile? c = some tile) : tile ∈ Tile.grid b.layout.width b.layout.height := by
  rcases h.mem_of_lt (Placement.lt_size_of_tile? hc) with hrouter | hlogic
  · obtain ⟨r, hr, htile⟩ := h.holds.exists_router hrouter
    obtain rfl := Option.some.inj (hc.symm.trans htile)
    exact (MeshSettings.isMesh_of_build h.topology).mem_grid
      (MeshSettings.fits_of_build h.topology) h.width h.height hr
  · obtain ⟨_, htile, hfree⟩ := h.onFreeTiles c hlogic
    obtain rfl := Option.some.inj (hc.symm.trans htile)
    exact Tile.mem_grid.2 ⟨hfree.column, hfree.row, hfree.layer⟩

/-- **The grid covers the mesh, unless it overflows.** Let a mesh be built. Then:

1. if it has routers then its grid fits exactly if none of them has the last coordinate that a word
   can hold;
2. if the grid fits then its numbers of columns and rows are found, and
   - every router is on the grid, so all of them are counted where free tiles are;
   - if there are routers then the last one is in the last column and in the last row;
   - every benchmark has this mesh and this grid, whatever is drawn and from whatever source;
   - if the source supplies the draws, and there are fewer logic blocks than words, then there is a
     benchmark, and all its blocks are on the grid;
3. if the grid does not fit then there is no benchmark, and nothing is drawn. -/
theorem generate_covers (hbuild : mesh.build = .ok t) (chance : Chance σ α)
    (s : TrafficSettings α) :
    (0 < t.routers.size → (mesh.GridFits ↔ ∀ r ∈ t.routers,
      r.tile.x.toNat + 1 < UInt32.size ∧ r.tile.y.toNat + 1 < UInt32.size)) ∧
    (mesh.GridFits → ∃ width height,
      (mesh.gridWidth = .ok width ∧ mesh.gridHeight = .ok height) ∧
      (∀ r ∈ t.routers, r.tile.x < width ∧ r.tile.y < height) ∧
      t.routersOnGrid width height = t.routers.size ∧
      (0 < t.routers.size → ∃ r ∈ t.routers,
        r.tile.x.toNat + 1 = width.toNat ∧ r.tile.y.toNat + 1 = height.toNat) ∧
      Draw.Promises (fun b ↦ b.topology = t ∧ b.layout.width = width ∧ b.layout.height = height)
        (generate chance mesh s) ∧
      (chance.Supplies s → s.logicBlockCount < UInt32.size →
        Draw.Completes (fun b ↦ ∀ c tile, b.placement.tile? c = some tile →
          tile.x < width ∧ tile.y < height) (generate chance mesh s))) ∧
    (¬ mesh.GridFits → ∀ source, generate chance mesh s source = Attempt.crash .overflow) := by
  have hmesh := MeshSettings.isMesh_of_build hbuild
  have hfits := MeshSettings.fits_of_build hbuild
  refine ⟨hmesh.gridFits_iff hfits, fun hgrid ↦ ?_, generate_overflows hbuild⟩
  obtain ⟨width, height, hwidth, hheight⟩ := hgrid.exists_extents
  have hcovered : ∀ r ∈ t.routers, r.tile ∈ Tile.grid width height := fun r hr ↦
    hmesh.mem_grid hfits hwidth hheight hr
  -- a benchmark has the extents that the settings lead to, and these are unique
  have hextents : ∀ {width' height'}, mesh.gridWidth = .ok width' → mesh.gridHeight = .ok height' →
      width' = width ∧ height' = height := fun hwidth' hheight' ↦
    ⟨Except.ok.inj (hwidth'.symm.trans hwidth), Except.ok.inj (hheight'.symm.trans hheight)⟩
  refine ⟨width, height, ⟨hwidth, hheight⟩, fun r hr ↦ ?_, Topology.routersOnGrid_eq_size hcovered,
    fun hsize ↦ ?_, ?_, fun hc hblocks ↦ ?_⟩
  · exact ⟨(Tile.mem_grid.1 (hcovered r hr)).1, (Tile.mem_grid.1 (hcovered r hr)).2.1⟩
  · obtain ⟨r, hr, hx, hy⟩ := hmesh.exists_last hfits hsize
    exact ⟨r, hr, hx ▸ (Attempt.word_eq_ok_iff.1 hwidth).symm,
      hy ▸ (Attempt.word_eq_ok_iff.1 hheight).symm⟩
  · exact generate_promises_grid.mono fun b ⟨htopology, hwidth', hheight'⟩ ↦
      ⟨Except.ok.inj (htopology.symm.trans hbuild), hextents hwidth' hheight'⟩
  · refine (generate_completes hc.toIndexes (fun _ _ ↦ hc) hfits hgrid hblocks.le).mono
      fun b hsound c tile htile ↦ ?_
    have hmem := Tile.mem_grid.1 (hsound.mem_grid htile)
    rw [(hextents hsound.width hsound.height).1, (hextents hsound.width hsound.height).2] at hmem
    exact ⟨hmem.1, hmem.2.1⟩

end Benchmark

/-- Two routers in a row. -/
def MeshSettings.pair (spacing : UInt32) : MeshSettings Float :=
  { MeshSettings.default with width := 2, height := 1, spacing := spacing }

/-- Two logic blocks and no flows. -/
def TrafficSettings.still : TrafficSettings Float :=
  { TrafficSettings.few with flowCount := 0 }

/-- Many columns, but no row and so no routers. -/
def MeshSettings.rowless : MeshSettings Float :=
  { MeshSettings.default with width := 4294967295, height := 0, spacing := 2 }

namespace Benchmark

open MeshSettings

/-- Two routers can be as far apart as this, with two logic blocks between them. -/
theorem generate_covers_pair :
    (pair 4294967294).GridFits ∧ (Chance.ofStream 50).Supplies .still ∧ ∃ t b source,
      (pair 4294967294).build = .ok t ∧ 0 < t.routers.size ∧
      generate (.ofStream 50) (pair 4294967294) .still (.ofSeed 7) = .ok (b, source) ∧
      b.layout.width = 4294967295 ∧ b.layout.height = 1 ∧
      (∀ r ∈ b.topology.routers, r.tile.x < 4294967295 ∧ r.tile.y < 1) ∧
      (∃ r ∈ b.topology.routers, r.tile.x = 4294967294) ∧
      ∀ c tile, b.placement.tile? c = some tile → tile.x < 4294967295 ∧ tile.y < 1 := by
  have hgrid : (pair 4294967294).GridFits := by decide
  have hc : (Chance.ofStream 50).Supplies .still := (Chance.inRange_ofStream 50).supplies
    (TrafficSettings.drawable_of_isFinite (by decide +kernel) (by decide +kernel))
  obtain ⟨t, hbuild, hmesh⟩ := build_isMesh (show (pair 4294967294).Fits by decide)
  have hsize : 0 < t.routers.size := hmesh.size_routers ▸ (by decide)
  obtain ⟨-, hcovers, -⟩ := generate_covers hbuild (.ofStream 50) .still
  obtain ⟨width, height, ⟨hwidth, hheight⟩, hrouters, -, hlast, hpromises, hcompletes⟩ :=
    hcovers hgrid
  obtain rfl : width = 4294967295 := UInt32.toNat_inj.1 (Attempt.word_eq_ok_iff.1 hwidth)
  obtain rfl : height = 1 := UInt32.toNat_inj.1 (Attempt.word_eq_ok_iff.1 hheight)
  obtain ⟨⟨b, source⟩, hrun, hblocks⟩ :=
    hcompletes hc (by decide) (.ofSeed 7) (by decide +kernel)
  obtain ⟨rfl, hwide, hhigh⟩ := hpromises _ b source hrun
  obtain ⟨r, hr, hx, -⟩ := hlast hsize
  exact ⟨hgrid, hc, b.topology, b, source, hbuild, hsize, hrun, hwide, hhigh, hrouters,
    ⟨r, hr, UInt32.toNat_inj.1 (Nat.succ.inj hx)⟩, hblocks⟩

/-- **A mesh may be built although its grid overflows.** If two routers are one tile farther apart
then their coordinates are words still, but the number of columns from one to the other is not. A
mesh without rows has no routers at all, and its number of columns may overflow all the same. -/
theorem generate_overflows_pair :
    ((∃ t, (pair 4294967295).build = .ok t ∧ t.routers.size = 2) ∧
      (∀ p ∈ (pair 4294967295).positions, p.1 * (pair 4294967295).pitch < UInt32.size ∧
        p.2 * (pair 4294967295).pitch < UInt32.size) ∧
      (pair 4294967295).gridWidth = Attempt.crash .overflow ∧
      ∀ patience s source,
        generate (.ofStream patience) (pair 4294967295) s source = Attempt.crash .overflow) ∧
    (∃ t, rowless.build = .ok t ∧ t.routers.size = 0) ∧
      rowless.gridWidth = Attempt.crash .overflow ∧
      ∀ patience s source,
        generate (.ofStream patience) rowless s source = Attempt.crash .overflow := by
  obtain ⟨t, hbuild, hmesh⟩ := build_isMesh (show (pair 4294967295).Fits by decide)
  obtain ⟨t', hbuild', hmesh'⟩ := build_isMesh (show rowless.Fits by decide)
  exact ⟨⟨⟨t, hbuild, hmesh.size_routers⟩, by decide, extent_eq_crash_iff.2 (by decide),
    fun _ s source ↦ generate_overflows hbuild (by decide) source⟩,
    ⟨t', hbuild', hmesh'.size_routers⟩, extent_eq_crash_iff.2 (by decide),
    fun _ s source ↦ generate_overflows hbuild' (by decide) source⟩

end Benchmark

end NetOnChip
