import NetOnChip.Proofs.Layout
import NetOnChip.Proofs.Storage
import NetOnChip.Proofs.Traffic.Entries

/-!
# Generated benchmarks

Whatever is drawn, a benchmark can be generated if the mesh and its grid fit and there are not too
many blocks (`Benchmark.generate_completes`). It is sound then (`Benchmark.Sound`): its blocks are
laid out (`Benchmark.Laid`), with one router block on each router and every logic block on a free
tile, so the placement keeps to the layout (`Laid.holds`); the flows run between different router
blocks, and their quantities are in the ranges that the settings give.
-/

namespace NetOnChip

variable {σ α : Type}

namespace Benchmark

/-! ### Numbering blocks -/

/-- Blocks that are numbered from some number on. -/
theorem mem_map_add {n count : Nat} {b : BlockId} :
    b ∈ (List.range count).map (fun i ↦ (⟨n + i⟩ : BlockId)) ↔
      n ≤ b.index ∧ b.index < n + count := by
  constructor
  · intro h
    obtain ⟨i, hi, rfl⟩ := List.mem_map.1 h
    exact ⟨Nat.le_add_right .., Nat.add_lt_add_left (List.mem_range.1 hi) n⟩
  · rintro ⟨hle, hlt⟩
    refine List.mem_map.2 ⟨b.index - n, List.mem_range.2 (by omega), Id.ext ?_⟩
    exact Nat.add_sub_cancel' hle

theorem nodup_map_add (n count : Nat) :
    ((List.range count).map fun i ↦ (⟨n + i⟩ : BlockId)).Nodup :=
  List.nodup_range.map fun _ _ h ↦ Nat.add_left_cancel (congrArg Id.index h)

/-! ### Placing blocks -/

variable {t : Topology α}

/-- Putting blocks on the tiles of routers leaves the other blocks where they are. -/
theorem tile?_foldl_set_of_not_mem {pairs : List (BlockId × Router α)} {b : BlockId}
    (hb : b ∉ pairs.map Prod.fst) (p : Placement) :
    (pairs.foldl (fun p (b, r) ↦ p.set b r.tile) p).tile? b = p.tile? b := by
  induction pairs generalizing p with
  | nil => rfl
  | cons e pairs ih =>
    rw [List.map_cons, List.mem_cons, not_or] at hb
    rw [List.foldl_cons, ih hb.2, Placement.tile?_set, if_neg hb.1]

/-- Putting different blocks on the tiles of routers. -/
theorem tile?_foldl_set {pairs : List (BlockId × Router α)} (hnodup : (pairs.map Prod.fst).Nodup)
    {b : BlockId} {r : Router α} (hb : (b, r) ∈ pairs) (p : Placement) :
    (pairs.foldl (fun p (b, r) ↦ p.set b r.tile) p).tile? b = some r.tile := by
  induction pairs generalizing p with
  | nil => exact absurd hb List.not_mem_nil
  | cons e pairs ih =>
    obtain ⟨he, hpairs⟩ := List.nodup_cons.1 hnodup
    rw [List.foldl_cons]
    rcases List.mem_cons.1 hb with rfl | hb
    · rw [tile?_foldl_set_of_not_mem he, Placement.tile?_set, if_pos rfl]
    · exact ih hpairs hb _

/-- **Every router carries one router block**, in their order. -/
theorem map_tile?_placeRouterBlocks (t : Topology α) (p : Placement) :
    (Id.range t.routers.size).map (placeRouterBlocks t p).tile? =
      t.routers.toList.map fun r ↦ some r.tile := by
  have hkeys : ((Id.range t.routers.size : List BlockId).zip t.routers.toList).map Prod.fst =
      Id.range t.routers.size := List.map_fst_zip (by simp)
  refine List.ext_getElem (by simp) fun i hi hi' ↦ ?_
  have hlt : i < t.routers.size := by simpa using hi
  have hmem : ((⟨i⟩ : BlockId), t.routers[i]) ∈
      (Id.range t.routers.size : List BlockId).zip t.routers.toList := by
    refine List.mem_iff_getElem.2 ⟨i, by simpa using hlt, ?_⟩
    simp [Id.range]
  have htile : (placeRouterBlocks t p).tile? ⟨i⟩ = some t.routers[i].tile :=
    tile?_foldl_set (hkeys.symm ▸ Id.nodup_range _) hmem p
  simpa [Id.range] using htile

/-- The blocks are put into a table that has room for them. -/
theorem size_foldl_set {pairs : List (BlockId × Router α)} {p : Placement}
    (h : ∀ e ∈ pairs, e.1.index < p.size) :
    (pairs.foldl (fun p (b, r) ↦ p.set b r.tile) p).size = p.size := by
  induction pairs generalizing p with
  | nil => rfl
  | cons e pairs ih =>
    obtain ⟨he, hpairs⟩ := List.forall_mem_cons.1 h
    have hset : (p.set e.1 e.2.tile).size = p.size := Placement.size_set_of_lt he
    exact (ih (by rwa [hset])).trans hset

theorem size_placeRouterBlocks {p : Placement} (h : t.routers.size ≤ p.size) :
    (placeRouterBlocks t p).size = p.size := by
  refine size_foldl_set fun (b, r) he ↦ ?_
  exact Nat.lt_of_lt_of_le (Id.mem_range.1 (List.of_mem_zip he).1) h

variable {chance : Chance σ α} {width height : UInt32}

/-- **Logic blocks are placed on free tiles**, all of them if there is such a tile, and the blocks
that are not among them stay. -/
theorem placeLogicBlocks_completes (hc : chance.Indexes) {blocks : List BlockId}
    (hfree : blocks ≠ [] → t.freeTileCount width height ≠ 0) (hnodup : blocks.Nodup)
    {p : Placement} (hroom : ∀ b ∈ blocks, b.index < p.size) :
    Draw.Completes (fun r ↦ r.1 = blocks ∧
        (∀ b ∈ blocks, ∃ tile, r.2.tile? b = some tile ∧ t.IsFree width height tile) ∧
        (∀ b ∉ blocks, r.2.tile? b = p.tile? b) ∧ r.2.size = p.size)
      (placeLogicBlocks chance t width height blocks p) := by
  induction blocks generalizing p with
  | nil => exact Draw.completes_pure ⟨rfl, nofun, fun _ _ ↦ rfl, rfl⟩
  | cons b blocks ih =>
    obtain ⟨hb, hblocks⟩ := List.nodup_cons.1 hnodup
    obtain ⟨hlt, hroom⟩ := List.forall_mem_cons.1 hroom
    have hset : ∀ tile, (p.set b tile).size = p.size := fun _ ↦ Placement.size_set_of_lt hlt
    have hcount := hfree (List.cons_ne_nil b blocks)
    refine (t.randomFreeTile_completes hc width height).bind fun found ⟨hnone, hfound⟩ ↦ ?_
    match found with
    | none => exact absurd (hnone.1 rfl) hcount
    | some tile =>
      have hrest := ih (fun _ ↦ hcount) hblocks (p := p.set b tile) (by rwa [hset])
      refine hrest.bind fun (placed, p') ⟨hall, hplaced, hothers, hsize⟩ ↦
        Draw.completes_pure ⟨congrArg (b :: ·) hall, ?_, fun c hc ↦ ?_, hsize.trans (hset tile)⟩
      · refine List.forall_mem_cons.2 ⟨⟨tile, ?_, hfound tile rfl⟩, hplaced⟩
        show p'.tile? b = some tile
        rw [hothers b hb, Placement.tile?_set, if_pos rfl]
      · rw [List.mem_cons, not_or] at hc
        show p'.tile? c = _
        rw [hothers c hc.2, Placement.tile?_set, if_neg hc.1]

/-- A benchmark whose blocks are numbered one after the other and placed, with room for some logic
blocks. -/
structure Laid (count : Nat) (b : Benchmark α) : Prop where
  /-- Router blocks are numbered as the routers are. -/
  routerBlocks : b.layout.routerBlocks = Id.range b.topology.routers.size
  /-- Logic blocks come after them, if there is a free tile. -/
  logicBlocks : b.layout.logicBlocks =
    (List.range (if 0 < b.topology.freeTileCount b.layout.width b.layout.height
      then count else 0)).map fun i ↦ ⟨b.topology.routers.size + i⟩
  /-- Every router block is on the router with its number. -/
  onRouters : b.layout.routerBlocks.map b.placement.tile? =
    b.topology.routers.toList.map fun r ↦ some r.tile
  /-- Every logic block is on a free tile. -/
  onFreeTiles : ∀ c ∈ b.layout.logicBlocks, ∃ tile, b.placement.tile? c = some tile ∧
    b.topology.IsFree b.layout.width b.layout.height tile
  /-- The table has no room for other blocks. -/
  size : b.placement.size = b.layout.routerBlocks.length + b.layout.logicBlocks.length

namespace Laid

variable {count : Nat} {b : Benchmark α}

/-- Logic blocks have higher numbers than router blocks. -/
theorem le_of_mem_logicBlocks (h : b.Laid count) {c : BlockId} (hc : c ∈ b.layout.logicBlocks) :
    b.topology.routers.size ≤ c.index := by
  rw [h.logicBlocks] at hc
  exact (mem_map_add.1 hc).1

/-- The blocks are different. -/
theorem distinct (h : b.Laid count) : b.layout.Distinct where
  nodup := by
    rw [h.routerBlocks]
    exact Id.nodup_range _
  disjoint c hrouter hlogic := by
    rw [h.routerBlocks, Id.mem_range] at hrouter
    exact absurd hrouter (Nat.not_lt.2 (h.le_of_mem_logicBlocks hlogic))

/-- **The placement keeps to the layout.** -/
theorem holds (h : b.Laid count) : b.layout.Holds b.topology b.placement :=
  ⟨h.onRouters ▸ .refl _, h.onFreeTiles⟩

/-- **Every block of the table is listed.** -/
theorem mem_of_lt (h : b.Laid count) {c : BlockId} (hc : c.index < b.placement.size) :
    c ∈ b.layout.routerBlocks ∨ c ∈ b.layout.logicBlocks := by
  have hsize := h.size
  rw [h.routerBlocks, Id.length_range, h.logicBlocks, List.length_map, List.length_range] at hsize
  rw [h.routerBlocks, Id.mem_range, h.logicBlocks, mem_map_add]
  omega

end Laid

/-- **Router blocks and logic blocks are placed one after the other**, in a table with room for just
them. It makes no difference which traffic is added. -/
theorem placeLogicBlocks_laid (hc : chance.Indexes) {count logic : Nat}
    (hlogic : (if 0 < t.freeTileCount width height then count else 0) = logic) {p : Placement}
    (hsize : p.size = t.routers.size + logic) :
    Draw.Completes
      (fun r ↦ ∀ traffic : Traffic α,
        Laid count ⟨t, traffic, r.2, ⟨Id.range t.routers.size, r.1, width, height⟩⟩)
      (placeLogicBlocks chance t width height
        ((List.range logic).map fun i ↦ ⟨t.routers.size + i⟩) (placeRouterBlocks t p)) := by
  have hsize' : (placeRouterBlocks t p).size = t.routers.size + logic := by
    rw [size_placeRouterBlocks (by omega), hsize]
  generalize hlist : (List.range logic).map (fun i ↦ (⟨t.routers.size + i⟩ : BlockId)) = blocks
  have hmem : ∀ b ∈ blocks, t.routers.size ≤ b.index ∧ b.index < t.routers.size + logic :=
    fun b hb ↦ mem_map_add.1 (hlist ▸ hb)
  have hfree : blocks ≠ [] → t.freeTileCount width height ≠ 0 := by
    rintro hne hcount
    rw [hcount, if_neg (Nat.lt_irrefl 0)] at hlogic
    exact hne (by rw [← hlist, ← hlogic]; rfl)
  refine (placeLogicBlocks_completes hc hfree (hlist ▸ nodup_map_add ..) fun b hb ↦
    hsize' ▸ (hmem b hb).2).mono fun (placed, p') ⟨hall, hplaced, hothers, hsame⟩ traffic ↦ ?_
  obtain rfl : placed = blocks := hall
  refine ⟨rfl, ?_, ?_, hplaced, ?_⟩
  · rw [← hlogic] at hlist
    exact hlist.symm
  · show (Id.range t.routers.size).map p'.tile? = _
    rw [← map_tile?_placeRouterBlocks t p]
    refine List.map_congr_left fun b hb ↦ hothers b fun hb' ↦ ?_
    exact absurd (Id.mem_range.1 hb) (Nat.not_lt.2 (hmem b hb').1)
  · show p'.size = (Id.range t.routers.size).length + placed.length
    rw [hsame, hsize', Id.length_range, ← hlist, List.length_map, List.length_range]

end Benchmark

/-! ### Drawing flows -/

variable [Scalar α] {chance : Chance σ α} {s : TrafficSettings α}

/-- Settings that flows can be drawn with. -/
structure TrafficSettings.Drawable (s : TrafficSettings α) : Prop where
  /-- If bandwidths are drawn then their bounds are numbers, and so is the distance of these. -/
  bandwidth : s.minBandwidth < s.maxBandwidth → Scalar.isFinite s.minBandwidth = true ∧
    Scalar.isFinite s.maxBandwidth = true ∧
    Scalar.isFinite (s.maxBandwidth - s.minBandwidth) = true
  /-- The share of limited flows may serve as a probability. -/
  fraction : 0 ≤ Scalar.clamp 0 1 s.constrainedFraction ∧ Scalar.clamp 0 1 s.constrainedFraction ≤ 1

/-- A source whose answers are in range, as far as flows are drawn with some settings. -/
structure Chance.Supplies (chance : Chance σ α) (s : TrafficSettings α) : Prop
    extends chance.Indexes where
  /-- A bandwidth that has to be between two bounds is. -/
  bandwidth : s.minBandwidth < s.maxBandwidth →
    Draw.Completes (fun a ↦ s.minBandwidth ≤ a ∧ a < s.maxBandwidth)
      (chance.between s.minBandwidth s.maxBandwidth)
  /-- Whether the latency of a flow is limited can be decided. -/
  limited : Draw.Completes (fun _ ↦ True) (chance.coin (Scalar.clamp 0 1 s.constrainedFraction))

/-- A source that is in range for all numbers is so for settings that flows can be drawn with. -/
theorem Chance.InRange.supplies (hc : chance.InRange) (hs : s.Drawable) : chance.Supplies s where
  below := hc.below
  belowWide := hc.belowWide
  bandwidth hlt :=
    have ⟨hmin, hmax, hdistance⟩ := hs.bandwidth hlt
    hc.between hmin hmax hdistance hlt
  limited := hc.coin hs.fraction.1 hs.fraction.2

/-- A flow between two of some router blocks, with quantities in the ranges of the settings. -/
structure Flow.IsDrawn (s : TrafficSettings α) (blocks : Nat) (flow : Flow α) : Prop where
  /-- The source is one of the blocks. -/
  source_lt : flow.source.index < blocks
  /-- The sink is one of the blocks. -/
  sink_lt : flow.sink.index < blocks
  /-- They are different. -/
  source_ne : flow.source ≠ flow.sink
  /-- The bandwidth is the least one, or it is below the bound. -/
  bandwidth : flow.bandwidth = s.minBandwidth ∨
    s.minBandwidth ≤ flow.bandwidth ∧ flow.bandwidth < s.maxBandwidth
  /-- The latency may be limited. -/
  maxLatency : flow.maxLatency = s.maxLatency ∨ flow.maxLatency = Scalar.infinity
  /-- The priority is one of those that flows are given. -/
  priority : flow.priority ∈ (Benchmark.priorities : List α)

/-- Traffic that was drawn between some router blocks, all of which are registered. -/
structure Traffic.IsDrawn (s : TrafficSettings α) (blocks : Nat) (t : Traffic α) : Prop where
  /-- The registry of the flows is exact. -/
  built : t.Built
  /-- The router blocks are those that flows are drawn between. -/
  routerBlocks : t.routerBlocks = Id.range blocks
  /-- Flows run between different router blocks. -/
  flows : ∀ flow ∈ t.flows, flow.IsDrawn s blocks

namespace Benchmark

omit [Scalar α] in
theorem otherThan_completes (hc : chance.Indexes) {blocks : Nat} (hblocks : 0 < blocks)
    (source count : Nat) :
    Draw.Completes (fun sink ↦ sink < blocks ∧ sink ≠ source)
      (otherThan chance blocks source count) := by
  induction count with
  | zero => exact Draw.completes_exhausted
  | succ count ih =>
    refine (hc.belowWide hblocks).bind fun sink hsink ↦ ?_
    split
    · exact ih
    · exact Draw.completes_pure ⟨hsink, ‹_›⟩

theorem randomFlow_completes (hc : chance.Supplies s) {blocks : Nat} (hblocks : 0 < blocks)
    (name : String) : Draw.Completes (Flow.IsDrawn s blocks) (randomFlow chance s blocks name) := by
  refine (hc.belowWide hblocks).bind fun source hsource ↦
    (otherThan_completes hc.toIndexes hblocks source _).bind fun sink ⟨hsink, hne⟩ ↦ ?_
  have hrest : ∀ bandwidth : α,
      bandwidth = s.minBandwidth ∨ s.minBandwidth ≤ bandwidth ∧ bandwidth < s.maxBandwidth →
        Draw.Completes (Flow.IsDrawn s blocks) (do
          let isLimited ← chance.coin (Scalar.clamp 0 1 s.constrainedFraction)
          let maxLatency := if isLimited then s.maxLatency else Scalar.infinity
          let priority := (priorities : List α)[← chance.belowWide 4]?.getD 1
          return ⟨name, ⟨source⟩, ⟨sink⟩, bandwidth, maxLatency, priority⟩) := by
    intro bandwidth hbandwidth
    refine hc.limited.bind fun isLimited _ ↦ (hc.belowWide (by decide : 0 < 4)).bind fun i hi ↦
      Draw.completes_pure ⟨hsource, hsink, fun e ↦ hne (congrArg Id.index e).symm, hbandwidth,
        ?_, ?_⟩
    · cases isLimited with
      | true => exact .inl rfl
      | false => exact .inr rfl
    · have hi' : i < (priorities : List α).length := hi
      show (priorities : List α)[i]?.getD 1 ∈ priorities
      rw [List.getElem?_eq_getElem hi']
      exact List.getElem_mem hi'
  by_cases hlt : s.minBandwidth < s.maxBandwidth
  · rw [if_pos hlt]
    exact (hc.bandwidth hlt).bind fun _ h ↦ hrest _ (.inr h)
  · rw [if_neg hlt]
    exact hrest _ (.inl rfl)

omit [Scalar α] in
/-- Registering new blocks lists them in their order, and adds no flow. -/
theorem foldl_register (blocks : List BlockId) {t : Traffic α} (ht : t.Built)
    (hnodup : (t.routerBlocks ++ blocks).Nodup) :
    (blocks.foldl Traffic.register t).Built ∧
      (blocks.foldl Traffic.register t).routerBlocks = t.routerBlocks ++ blocks ∧
      (blocks.foldl Traffic.register t).flows = t.flows := by
  induction blocks generalizing t with
  | nil => exact ⟨ht, (List.append_nil _).symm, rfl⟩
  | cons b blocks ih =>
    have hnew : ¬t.isRouterBlock b = true := fun hb ↦
      (List.nodup_append.1 hnodup).2.2 b ((ht.mem_routerBlocks_iff b).2 hb) b List.mem_cons_self rfl
    have hblocks : (t.register b).routerBlocks = t.routerBlocks ++ [b] := by
      rw [Traffic.routerBlocks_register, if_neg hnew]
    have happend : t.routerBlocks ++ b :: blocks = t.routerBlocks ++ [b] ++ blocks := by simp
    rw [happend, ← hblocks] at hnodup
    obtain ⟨hbuilt, hall, hflows⟩ := ih (.register b ht) hnodup
    exact ⟨hbuilt, by rw [happend, ← hblocks, ← hall]; rfl, hflows.trans Traffic.flows_register⟩

theorem isDrawn_register (s : TrafficSettings α) (blocks : Nat) :
    ((Id.range blocks).foldl Traffic.register .empty).IsDrawn s blocks ∧
      ((Id.range blocks).foldl Traffic.register (.empty : Traffic α)).flows.size = 0 := by
  obtain ⟨hbuilt, hblocks, hflows⟩ :=
    foldl_register (t := (.empty : Traffic α)) (Id.range blocks) .empty (Id.nodup_range blocks)
  refine ⟨⟨hbuilt, hblocks, fun flow hflow ↦ ?_⟩, by rw [hflows]; rfl⟩
  rw [hflows] at hflow
  exact absurd hflow (Array.not_mem_empty flow)

end Benchmark

/-- The router blocks of drawn traffic. -/
theorem Traffic.IsDrawn.isRouterBlock_iff {blocks : Nat} {t : Traffic α} (h : t.IsDrawn s blocks)
    {b : BlockId} : t.isRouterBlock b = true ↔ b.index < blocks := by
  rw [← h.built.mem_routerBlocks_iff, h.routerBlocks, Id.mem_range]

/-- A drawn flow may be added. Its ends are registered already. -/
theorem Traffic.IsDrawn.add {blocks : Nat} {t : Traffic α} (h : t.IsDrawn s blocks)
    {flow : Flow α} (hflow : flow.IsDrawn s blocks) : (t.add flow).2.IsDrawn s blocks := by
  refine ⟨.add flow h.built, ?_, fun other hother ↦ ?_⟩
  · have hsource : t.isRouterBlock flow.source := h.isRouterBlock_iff.2 hflow.source_lt
    have hsink : (t.register flow.source).isRouterBlock flow.sink := by
      rw [Traffic.isRouterBlock_register, h.isRouterBlock_iff.2 hflow.sink_lt, Bool.or_true]
    rw [Traffic.routerBlocks_add, Traffic.routerBlocks_register, if_pos hsink,
      Traffic.routerBlocks_register, if_pos hsource, h.routerBlocks]
  · rw [Traffic.flows_add] at hother
    rcases Array.mem_push.1 hother with hother | rfl
    · exact h.flows other hother
    · exact hflow

namespace Benchmark

/-- **As many flows are added as there should be.** If there should be none then nothing is drawn,
and nothing is asked of the settings. -/
theorem addFlows_completes {blocks count : Nat}
    (hc : 0 < count → 0 < blocks ∧ chance.Supplies s) (i : Nat) {t : Traffic α}
    (ht : t.IsDrawn s blocks) :
    Draw.Completes (fun t' ↦ t'.IsDrawn s blocks ∧ t'.flows.size = t.flows.size + count)
      (addFlows chance s blocks count i t) := by
  induction count generalizing i t with
  | zero => exact Draw.completes_pure ⟨ht, rfl⟩
  | succ count ih =>
    have hnow := hc (Nat.succ_pos count)
    refine (randomFlow_completes hnow.2 hnow.1 _).bind fun flow hflow ↦
      (ih (fun _ ↦ hnow) (i + 1) (ht.add hflow)).mono fun t' ⟨ht', hsize⟩ ↦ ⟨ht', ?_⟩
    rw [hsize, Traffic.flows_add, Array.size_push]
    omega

/-! ### Whole benchmarks -/

/-- What a generated benchmark promises. -/
structure Sound (mesh : MeshSettings α) (s : TrafficSettings α) (b : Benchmark α) : Prop
    extends Laid s.logicBlockCount b where
  /-- The topology is the mesh. -/
  topology : mesh.build = .ok b.topology
  /-- The grid reaches from the first column of routers to the last one. -/
  width : mesh.gridWidth = .ok b.layout.width
  /-- The grid reaches from the first row of routers to the last one. -/
  height : mesh.gridHeight = .ok b.layout.height
  /-- The traffic runs between the router blocks. -/
  traffic : b.traffic.IsDrawn s b.topology.routers.size
  /-- There are as many flows as there should be, if they can have different ends. -/
  flowCount : b.traffic.flows.size = if 2 ≤ b.topology.routers.size then s.flowCount else 0

/-- **A benchmark can always be generated**, and it is sound. -/
theorem generate_completes {mesh : MeshSettings α} (hc : chance.Indexes)
    (hflows : 2 ≤ mesh.width.toNat * mesh.height.toNat → 0 < s.flowCount → chance.Supplies s)
    (hfits : mesh.Fits) (hgrid : mesh.GridFits) (hblocks : s.logicBlockCount ≤ UInt32.size) :
    Draw.Completes (Sound mesh s) (generate chance mesh s) := by
  have hbuild : mesh.build.Yields fun t ↦ mesh.build = .ok t ∧ mesh.IsMesh t :=
    Attempt.Yields.self (MeshSettings.build_isMesh hfits)
  have hcolumns : mesh.gridWidth.Yields _ := (Attempt.yields_word hgrid.1).self
  have hrows : mesh.gridHeight.Yields _ := (Attempt.yields_word hgrid.2).self
  refine (Draw.completes_lift hbuild).bind ?_
  rintro t ⟨htopology, hmesh⟩
  refine (Draw.completes_lift hcolumns).bind ?_
  rintro width ⟨hwidth, -⟩
  refine (Draw.completes_lift hrows).bind ?_
  rintro height ⟨hheight, -⟩
  have hrouters : t.routers.size ≤ UInt32.size := hmesh.size_routers ▸ hfits.count_le
  -- logic blocks are numbered from the number of routers on
  generalize hlogic : (if 0 < t.freeTileCount width height then s.logicBlockCount else 0) = logic
  have hfew : t.routers.size + logic < tableLimit := by
    have hle : logic ≤ s.logicBlockCount := by
      rw [← hlogic]
      split <;> omega
    have hlimit : UInt32.size + UInt32.size < tableLimit := by decide
    omega
  have hplacement : (Placement.ofSize (t.routers.size + logic) : Attempt α Placement).Yields
      fun p ↦ p.size = t.routers.size + logic := ⟨_, if_pos hfew, Array.size_replicate⟩
  refine (Draw.completes_lift hplacement).bind fun p hsize ↦ ?_
  refine (placeLogicBlocks_laid hc hlogic hsize).bind fun (placed, p') hlaid ↦ ?_
  obtain ⟨hdrawn, hnone⟩ := isDrawn_register s t.routers.size
  have hdraws : 0 < (if 2 ≤ t.routers.size then s.flowCount else 0) →
      0 < t.routers.size ∧ chance.Supplies s := by
    split
    · rename_i htwo
      exact fun hcount ↦ ⟨by omega, hflows (hmesh.size_routers ▸ htwo) hcount⟩
    · exact fun hcount ↦ absurd hcount (Nat.lt_irrefl 0)
  refine (addFlows_completes hdraws 0 hdrawn).bind fun traffic ⟨htraffic, hcount⟩ ↦
    Draw.completes_pure ⟨hlaid traffic, htopology, hwidth, hheight, htraffic, ?_⟩
  rw [hcount, hnone, Nat.zero_add]

end Benchmark

/-! ### Identifiers -/

/-- A mesh with blocks and flows whose identifiers are all words. Nothing is different then where
identifiers are kept in words. -/
structure MeshSettings.InWords (mesh : MeshSettings α) (l : Layout) (t : Topology α)
    (traffic : Traffic α) : Prop where
  /-- The mesh is stored as it is, and the same routers are found on the tiles. -/
  stored : ∃ n, mesh.store = .ok n ∧ n.toNetwork = .ofTopology t ∧
    ∀ tile, n.routerAt? tile = t.routerAt? tile
  /-- Every block is numbered by a word. -/
  blocks : ∀ b ∈ l.routerBlocks ++ l.logicBlocks, b.index < UInt32.size
  /-- The flows can be numbered by words. -/
  flows : traffic.flows.size ≤ UInt32.size

/-- **The identifiers of a benchmark are words** if there are not too many links, blocks and
flows. -/
theorem Benchmark.Sound.inWords {mesh : MeshSettings α} {b : Benchmark α} (h : b.Sound mesh s)
    (hlinks : mesh.LinksFit)
    (hblocks : mesh.width.toNat * mesh.height.toNat + s.logicBlockCount ≤ UInt32.size)
    (hflows : s.flowCount ≤ UInt32.size) : mesh.InWords b.layout b.topology b.traffic where
  stored := MeshSettings.store_of_build h.topology hlinks
  blocks c hc := by
    rw [← (MeshSettings.isMesh_of_build h.topology).size_routers] at hblocks
    rcases List.mem_append.1 hc with hrouter | hlogic
    · rw [h.routerBlocks, Id.mem_range] at hrouter
      omega
    · rw [h.logicBlocks, mem_map_add] at hlogic
      split at hlogic <;> omega
  flows := by
    rw [h.flowCount]
    split <;> omega

end NetOnChip
