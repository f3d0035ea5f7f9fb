import NetOnChip.Proofs.FreeTiles
import NetOnChip.Proofs.Random.Promises
import NetOnChip.Proofs.Settings

/-!
# Generated benchmarks can be routed

A benchmark that was generated is complete: every block of its table is placed, and its flows run
between blocks that stand on routers of a mesh. So the flows of every benchmark can be routed by the
fewest hops and in dimension order, whatever was drawn, and whatever the scalars are
(`Benchmark.generate_routed`).
-/

namespace NetOnChip

variable {σ α : Type} [Scalar α] {chance : Chance σ α} {mesh : MeshSettings α}
  {s : TrafficSettings α} {b : Benchmark α}

namespace Benchmark.Sound

/-! ### Blocks -/

/-- **Block by block**, the router blocks are on the routers. -/
theorem tile?_router (h : b.Sound mesh s) {c : BlockId} (hc : c.index < b.topology.routers.size) :
    ∃ router, b.topology.router ⟨c.index⟩ = .ok router ∧
      b.placement.tile? c = some router.tile := by
  have htiles := congrArg (·[c.index]?) (h.routerBlocks ▸ h.onRouters)
  have hblock : (Id.range b.topology.routers.size : List BlockId)[c.index]? = some c :=
    Id.getElem?_range_eq_some_iff.2 ⟨rfl, hc⟩
  simp only [List.getElem?_map, hblock, Array.getElem?_toList, Array.getElem?_eq_getElem hc,
    Option.map_some, Option.some.injEq] at htiles
  exact ⟨_, Attempt.entry_eq_ok_iff.2 (Array.getElem?_eq_getElem hc), htiles⟩

/-- **Every block of the table is placed.** -/
theorem exists_tile? (h : b.Sound mesh s) {c : BlockId} (hc : c.index < b.placement.size) :
    ∃ tile, b.placement.tile? c = some tile := by
  rcases h.mem_of_lt hc with hrouter | hlogic
  · rw [h.routerBlocks, Id.mem_range] at hrouter
    obtain ⟨router, -, htile⟩ := h.tile?_router hrouter
    exact ⟨router.tile, htile⟩
  · obtain ⟨tile, htile, -⟩ := h.onFreeTiles c hlogic
    exact ⟨tile, htile⟩

/-- The router under a router block has the number of the block. -/
theorem placedRouter_eq (h : b.Sound mesh s) {c : BlockId}
    (hc : c.index < b.topology.routers.size) :
    placedRouter b.topology b.placement c = .ok ⟨c.index⟩ := by
  obtain ⟨router, hrouter, htile⟩ := h.tile?_router hc
  have hbuilt := (MeshSettings.isMesh_of_build h.topology).built
  have hat : b.topology.routerAt? router.tile = some ⟨c.index⟩ :=
    hbuilt.routerAt?_eq_some_iff.2 ⟨router, hrouter, rfl⟩
  rw [placedRouter, Placement.locate, htile]
  simp only [Attempt.ok_bind, hat]
  rfl

/-! ### Routes -/

/-- Flows are routed between the routers with the numbers of their blocks. -/
theorem routeFlow_eq (h : b.Sound mesh s) (a : Algorithm) {f : FlowId} {flow : Flow α}
    (hf : b.traffic.flows[f.index]? = some flow) :
    routeFlow b.traffic a b.topology b.placement f =
      a.route b.topology ⟨flow.source.index⟩ ⟨flow.sink.index⟩ := by
  have hdrawn := h.traffic.flows flow (Array.mem_of_getElem? hf)
  have hflow : b.traffic.flow f = .ok flow := Attempt.entry_eq_ok_iff.2 hf
  rw [routeFlow, hflow, Attempt.ok_bind, h.placedRouter_eq hdrawn.source_lt, Attempt.ok_bind,
    h.placedRouter_eq hdrawn.sink_lt, Attempt.ok_bind]

/-- **The flows can be routed**, by the fewest hops and in dimension order. -/
theorem routable (h : b.Sound mesh s) {a : Algorithm} (ha : a = .fewestHops ∨ a = .dimensionOrder) :
    Ledger.Routable b.traffic a b.topology b.placement := by
  have hmesh := MeshSettings.isMesh_of_build h.topology
  have hfits := MeshSettings.fits_of_build h.topology
  have hhouses : mesh.Houses b.traffic b.placement := h.holds.houses hmesh fun flow hflow ↦ by
    rw [h.routerBlocks, Id.mem_range, Id.mem_range]
    exact ⟨(h.traffic.flows flow hflow).source_lt, (h.traffic.flows flow hflow).sink_lt⟩
  refine hmesh.routable hfits hhouses fun p hp q hq ↦ ?_
  rcases ha with rfl | rfl
  · exact (hmesh.exists_route_fewestHops hfits hp hq).imp fun _ hfound ↦ hfound.1
  · exact (hmesh.exists_route_dimensionOrder hfits hp hq).imp fun _ hfound ↦ hfound.1

end Benchmark.Sound

/-- What is left when the flows of a benchmark were routed for the first time. -/
structure Benchmark.IsRouted (b : Benchmark α) (a : Algorithm)
    (o : Outcome (Tracker α) α (CostTerms α)) : Prop where
  /-- There is no failure. -/
  succeeds : o.result.Yields fun _ ↦ True
  /-- The tracker knows that the flows were routed. -/
  isRouted : o.state.isRouted = true
  /-- There is one route for each flow. -/
  size_routes : o.state.ledger.table.routes.size = b.traffic.flows.size
  /-- It is the one that is found between the routers of the flow. -/
  routes : ∀ (f : FlowId) flow, b.traffic.flows[f.index]? = some flow →
    ∃ route, o.state.routeOf f = .ok route ∧
      a.route b.topology ⟨flow.source.index⟩ ⟨flow.sink.index⟩ = .ok route
  /-- Every link is charged with what these routes demand of it. -/
  usage : ∀ l : LinkId, l.index < b.topology.links.size →
    o.state.network.usageOf l = .ok (b.traffic.demand o.state.ledger.table.routes l)

/-- **The first routing** of a benchmark. -/
theorem Benchmark.Sound.isRouted (h : b.Sound mesh s) {a : Algorithm}
    (ha : a = .fewestHops ∨ a = .dimensionOrder) (w : Weights α) :
    b.IsRouted a ((Tracker.fresh b.topology b.traffic a w).route b.placement) := by
  have hmesh := MeshSettings.isMesh_of_build h.topology
  have hroutable := h.routable ha
  rw [Tracker.route_fresh_of_routable hmesh.built.wellFormed hmesh.closed hroutable]
  refine ⟨⟨_, rfl, trivial⟩, rfl, Ledger.size_routesFor, fun f flow hf ↦ ?_,
    fun l hl ↦ Ledger.usageOf_ofRoutes hl⟩
  have hlt : f.index < b.traffic.flows.size := (Array.getElem?_eq_some_iff.1 hf).1
  obtain ⟨route, hroute⟩ := hroutable f hlt
  refine ⟨route, Attempt.entry_eq_ok_iff.2 ?_, (h.routeFlow_eq a hf).symm.trans hroute⟩
  show (Ledger.routesFor b.traffic a b.topology b.placement)[f.index]? = _
  rw [Ledger.getElem?_routesFor hlt, Ledger.newRoute, hroute]
  rfl

/-! ### Whole benchmarks -/

/-- **Every generated benchmark is well formed, and its flows can be routed.** Let the routers and
links of the mesh, its grid, and the numbers of all blocks and flows fit into words. If flows are to
be drawn then let the settings be such that this can be done. Whatever is drawn, if the loops end
then there is a benchmark, and:

1. the topology is the mesh, which is stored as it is, and the grid reaches from the first router to
   the last one; all identifiers are words;
2. the router blocks have the numbers of the routers, each one is on its router, and each one is
   registered as a router block;
3. the logic blocks come after them without a gap, all of them if the grid has a free tile and none
   if it has not; each one is on a free tile of the grid, and none is a router block;
4. there are no other blocks in the table, and each of them is placed;
5. there are as many flows as there should be, or none if there are less than two routers; each one
   runs between two different router blocks;
6. routing the flows for the first time succeeds, both by the fewest hops and in dimension order,
   and then every flow has the route that is found between its routers, and the links are charged
   for these routes. -/
theorem Benchmark.generate_routed (hc : chance.InRange) (hfits : mesh.Fits)
    (hlinks : mesh.LinksFit) (hgrid : mesh.GridFits)
    (hblocks : mesh.width.toNat * mesh.height.toNat + s.logicBlockCount ≤ UInt32.size)
    (hflows : s.flowCount ≤ UInt32.size)
    (hdrawn : 2 ≤ mesh.width.toNat * mesh.height.toNat → 0 < s.flowCount → s.Drawable) {source : σ}
    (hends : Attempt.Ends (generate chance mesh s source)) :
    ∃ b source', generate chance mesh s source = .ok (b, source') ∧
      (mesh.build = .ok b.topology ∧ mesh.InWords b.layout b.topology b.traffic ∧
        b.topology.routers.size = mesh.width.toNat * mesh.height.toNat ∧
        b.layout.width.toNat = mesh.reach mesh.width + 1 ∧
        b.layout.height.toNat = mesh.reach mesh.height + 1) ∧
      (b.layout.routerBlocks = (List.range b.topology.routers.size).map .ofNat ∧
        ∀ c ∈ b.layout.routerBlocks, b.traffic.isRouterBlock c = true ∧
          ∃ router, b.topology.router ⟨c.index⟩ = .ok router ∧
            b.placement.tile? c = some router.tile) ∧
      (((∃ tile, b.topology.IsFree b.layout.width b.layout.height tile) →
          b.layout.logicBlocks =
            (List.range s.logicBlockCount).map fun i ↦ .ofNat (b.topology.routers.size + i)) ∧
        ((∀ tile, ¬ b.topology.IsFree b.layout.width b.layout.height tile) →
          b.layout.logicBlocks = []) ∧
        ∀ c ∈ b.layout.logicBlocks, b.traffic.isRouterBlock c = false ∧
          ∃ tile, b.placement.tile? c = some tile ∧
            b.topology.IsFree b.layout.width b.layout.height tile) ∧
      (b.placement.size = b.topology.routers.size + b.layout.logicBlocks.length ∧
        ∀ c : BlockId, c.index < b.placement.size → ∃ tile, b.placement.tile? c = some tile) ∧
      (b.traffic.flows.size = (if 2 ≤ b.topology.routers.size then s.flowCount else 0) ∧
        ∀ flow ∈ b.traffic.flows, flow.source ∈ b.layout.routerBlocks ∧
          flow.sink ∈ b.layout.routerBlocks ∧ flow.source ≠ flow.sink) ∧
      ∀ (w : Weights α) (a : Algorithm), a = .fewestHops ∨ a = .dimensionOrder →
        b.IsRouted a ((Tracker.fresh b.topology b.traffic a w).route b.placement) := by
  obtain ⟨⟨b, source'⟩, hrun, h⟩ := generate_completes hc.indexes
    (fun htwo hcount ↦ hc.supplies (hdrawn htwo hcount)) hfits hgrid
    ((Nat.le_add_left ..).trans hblocks) source hends
  have hmesh := MeshSettings.isMesh_of_build h.topology
  have hsize := hmesh.size_routers
  have hzero := hmesh.built.freeTileCount_eq_zero_iff b.layout.width b.layout.height
  refine ⟨b, source', hrun,
    ⟨h.topology, h.inWords hlinks hblocks hflows, hsize, Attempt.word_eq_ok_iff.1 h.width,
      Attempt.word_eq_ok_iff.1 h.height⟩,
    ⟨?_, fun c hrouter ↦ ?_⟩,
    ⟨fun hfree ↦ ?_, fun hnone ↦ ?_, fun c hlogic ↦ ⟨?_, h.onFreeTiles c hlogic⟩⟩,
    ⟨?_, fun c ↦ h.exists_tile?⟩, ⟨h.flowCount, fun flow hflow ↦ ?_⟩,
    fun w a ha ↦ h.isRouted ha w⟩
  · rw [h.routerBlocks, Id.map_ofNat_range (hsize ▸ hfits.count_le)]
  · rw [h.routerBlocks, Id.mem_range] at hrouter
    exact ⟨h.traffic.isRouterBlock_iff.2 hrouter, h.tile?_router hrouter⟩
  · rw [h.logicBlocks, if_pos (Nat.pos_of_ne_zero fun hcount ↦ ?_)]
    · refine List.map_congr_left fun i hi ↦ (Id.ofNat_of_lt ?_).symm
      rw [List.mem_range] at hi
      omega
    · obtain ⟨tile, htile⟩ := hfree
      exact hzero.1 hcount tile htile
  · rw [h.logicBlocks, hzero.2 hnone, if_neg (Nat.lt_irrefl 0)]
    rfl
  · rw [Bool.eq_false_iff, Ne, h.traffic.isRouterBlock_iff]
    exact Nat.not_lt.2 (h.le_of_mem_logicBlocks hlogic)
  · rw [h.size, h.routerBlocks, Id.length_range]
  · have hends := h.traffic.flows flow hflow
    rw [h.routerBlocks, Id.mem_range, Id.mem_range]
    exact ⟨hends.source_lt, hends.sink_lt, hends.source_ne⟩

/-! ### Random words -/

/-- A share that stands for something can be moved into the interval from zero to one. -/
theorem Double.clamp_mem {a : Float} (ha : a.isNaN = false) :
    0.0 ≤ Scalar.clamp 0.0 1.0 a ∧ Scalar.clamp 0.0 1.0 a ≤ 1.0 := by
  have hzero : (0.0 : Float) ≤ 1.0 := by decide +kernel
  rw [Scalar.clamp]
  split
  · exact ⟨by decide +kernel, hzero⟩
  · rename_i hlow
    split
    · exact ⟨hzero, by decide +kernel⟩
    · rename_i hhigh
      exact ⟨(Double.le_or_isNaN_of_not_lt hlow).resolve_right (by rw [ha]; decide +kernel),
        (Double.le_or_isNaN_of_not_lt hhigh).resolve_right (by rw [ha]; decide +kernel)⟩

/-- **Flows can be drawn with doubles** if the share of limited flows stands for something, and if
the bounds of the bandwidths and their distance are numbers. -/
theorem TrafficSettings.drawable_of_isFinite {s : TrafficSettings Float}
    (hfraction : s.constrainedFraction.isNaN = false)
    (hbandwidth : s.minBandwidth < s.maxBandwidth → s.minBandwidth.isFinite ∧
      s.maxBandwidth.isFinite ∧ (s.maxBandwidth - s.minBandwidth).isFinite) : s.Drawable where
  bandwidth := hbandwidth
  fraction := Double.clamp_mem hfraction

/-- A mesh of two columns and two rows, on every second tile. -/
def MeshSettings.square : MeshSettings Float :=
  ⟨2, 2, 2, 8.0, 1.0, 1.0⟩

/-- Three flows and two logic blocks. -/
def TrafficSettings.few : TrafficSettings Float where
  flowCount := 3
  minBandwidth := 1.0
  maxBandwidth := 2.0
  constrainedFraction := 0.5
  maxLatency := 4.0
  logicBlockCount := 2
  seed := 7

theorem TrafficSettings.drawable_few : TrafficSettings.few.Drawable :=
  drawable_of_isFinite (by decide +kernel) (by decide +kernel)

/-- From the words that the seed leads to, a benchmark is generated with four router blocks, three
flows, and two logic blocks on a grid of three columns and three rows; all six blocks are placed,
and its flows can be routed. -/
theorem Benchmark.generate_routed_square :
    (Chance.ofStream 50).InRange ∧ MeshSettings.square.Fits ∧ MeshSettings.square.LinksFit ∧
      MeshSettings.square.GridFits ∧ TrafficSettings.few.Drawable ∧
      ∃ b s, generate (.ofStream 50) .square .few (.ofSeed TrafficSettings.few.seed) = .ok (b, s) ∧
        b.layout.width = 3 ∧ b.layout.height = 3 ∧
        b.layout.routerBlocks = [⟨0⟩, ⟨1⟩, ⟨2⟩, ⟨3⟩] ∧ b.layout.logicBlocks = [⟨4⟩, ⟨5⟩] ∧
        (∀ c : BlockId, c.index < 6 → ∃ tile, b.placement.tile? c = some tile) ∧
        b.traffic.flows.size = 3 ∧
        ∀ w : Weights Float, b.IsRouted .fewestHops
          ((Tracker.fresh b.topology b.traffic .fewestHops w).route b.placement) := by
  have hfits : MeshSettings.square.Fits := by decide
  have hlinks : MeshSettings.square.LinksFit := by decide
  have hgrid : MeshSettings.square.GridFits := by decide
  have hends : Attempt.Ends (generate (.ofStream 50) .square .few
      (.ofSeed TrafficSettings.few.seed)) := by decide +kernel
  obtain ⟨b, s, hrun, ⟨hbuild, -, hsize, hwidth, hheight⟩, ⟨hrouters, -⟩, ⟨hlogic, -⟩,
    ⟨htable, hplaced⟩, ⟨hflows, -⟩, hroutes⟩ :=
      generate_routed (Chance.inRange_ofStream 50) hfits hlinks hgrid (by decide) (by decide)
        (fun _ _ ↦ TrafficSettings.drawable_few) hends
  have hsize' : b.topology.routers.size = 4 := hsize
  have hwide : b.layout.width = 3 := UInt32.toNat_inj.1 hwidth
  have hhigh : b.layout.height = 3 := UInt32.toNat_inj.1 hheight
  rw [hsize'] at hrouters hlogic htable hflows
  -- the second tile is between two routers
  have hfree : b.topology.IsFree b.layout.width b.layout.height ⟨1, 0, 0⟩ := by
    rw [hwide, hhigh]
    refine ⟨by decide, by decide, rfl, Topology.routerAt?_eq_none_iff.2 ?_⟩
    rw [(MeshSettings.isMesh_of_build hbuild).routers_eq]
    decide +kernel
  have hlogic' : b.layout.logicBlocks = [⟨4⟩, ⟨5⟩] := hlogic ⟨_, hfree⟩
  rw [hlogic'] at htable
  exact ⟨Chance.inRange_ofStream 50, hfits, hlinks, hgrid, TrafficSettings.drawable_few, b, s, hrun,
    hwide, hhigh, hrouters, hlogic', fun c hlt ↦ hplaced c (htable ▸ hlt), hflows,
    fun w ↦ hroutes w _ (.inl rfl)⟩

/-! ### Flows that cannot be drawn -/

/-- No double is drawn between two bounds unless these and their distance are numbers. -/
theorem Chance.sampleBetween_promises_none {patience : Nat} {lo hi : Float}
    (h : ¬ (lo < hi ∧ lo.isFinite ∧ hi.isFinite ∧ (hi - lo).isFinite)) :
    Draw.Promises (fun _ ↦ False) (sampleBetween patience lo hi) := by
  intro s b s' hrun
  rw [sampleBetween, if_neg h] at hrun
  cases hrun

/-- No coin is tossed unless its probability is between zero and one. -/
theorem Chance.toss_promises_none {probability : Float}
    (h : ¬ (0.0 ≤ probability ∧ probability ≤ 1.0)) :
    Draw.Promises (fun _ ↦ False) (toss probability) := by
  intro s b s' hrun
  rw [toss, if_neg h] at hrun
  cases hrun

namespace Benchmark

section Undrawable

variable {s : TrafficSettings Float} (hs : ¬ s.Drawable) (patience : Nat)

include hs

/-- **No flow is drawn** with such settings. -/
theorem randomFlow_promises_none (blocks : Nat) (name : String) :
    Draw.Promises (fun _ ↦ False) (randomFlow (.ofStream patience) s blocks name) := by
  refine Draw.promises_bind fun source ↦ Draw.promises_bind fun sink ↦ ?_
  -- if the bandwidths are in order, then the share of limited flows is no probability
  have htoss (hbandwidth : s.minBandwidth < s.maxBandwidth → s.minBandwidth.isFinite = true ∧
      s.maxBandwidth.isFinite = true ∧ (s.maxBandwidth - s.minBandwidth).isFinite = true) :
      Draw.Promises (fun _ ↦ False) (Chance.toss (Scalar.clamp 0 1 s.constrainedFraction)) :=
    Chance.toss_promises_none fun hfraction ↦ hs ⟨hbandwidth, hfraction⟩
  by_cases hlt : s.minBandwidth < s.maxBandwidth
  · rw [if_pos hlt]
    by_cases hnumbers : s.minBandwidth.isFinite = true ∧ s.maxBandwidth.isFinite = true ∧
        (s.maxBandwidth - s.minBandwidth).isFinite = true
    · exact Draw.promises_bind fun _ ↦ (htoss fun _ ↦ hnumbers).none_bind
    · exact (Chance.sampleBetween_promises_none fun h ↦ hnumbers h.2).none_bind
  · rw [if_neg hlt]
    exact Draw.promises_bind fun _ ↦ (htoss fun h ↦ absurd h hlt).none_bind

/-- **No benchmark is generated** if a flow has to be drawn with such settings, from whatever words
and with whatever patience. -/
theorem generate_ne_ok {mesh : MeshSettings Float}
    (htwo : 2 ≤ mesh.width.toNat * mesh.height.toNat) (hcount : 0 < s.flowCount) (source : Stream)
    (r : Benchmark Float × Stream) : generate (.ofStream patience) mesh s source ≠ .ok r := by
  have hnone : Draw.Promises (fun _ ↦ False) (generate (.ofStream patience) mesh s) := by
    refine (Draw.promises_lift fun t ht ↦ (MeshSettings.isMesh_of_build ht).size_routers).bind
      fun t hsize ↦ ?_
    refine Draw.promises_bind fun width ↦ Draw.promises_bind fun height ↦
      Draw.promises_bind fun p ↦ Draw.promises_bind fun placed ↦ ?_
    obtain ⟨count, hcount⟩ := Nat.exists_eq_succ_of_ne_zero hcount.ne'
    rw [if_pos (hsize ▸ htwo), hcount]
    exact (randomFlow_promises_none hs patience _ _).none_bind.none_bind
  exact fun h ↦ hnone source r.1 r.2 h

end Undrawable

end Benchmark

/-- Three flows whose bandwidths have no bound. -/
def TrafficSettings.endless : TrafficSettings Float :=
  { TrafficSettings.few with maxBandwidth := Scalar.infinity }

/-- **That everything fits is not enough**, even if all draws are in range and all loops end: there
is no benchmark if bandwidths would have to be drawn below an infinite bound. -/
theorem Benchmark.generate_routed_endless :
    (Chance.ofStream 50).InRange ∧ MeshSettings.square.Fits ∧ MeshSettings.square.LinksFit ∧
      MeshSettings.square.GridFits ∧
      MeshSettings.square.width.toNat * MeshSettings.square.height.toNat +
        TrafficSettings.endless.logicBlockCount ≤ UInt32.size ∧
      TrafficSettings.endless.flowCount ≤ UInt32.size ∧
      Attempt.Ends (generate (.ofStream 50) .square .endless
        (.ofSeed TrafficSettings.endless.seed)) ∧
      ∀ r, generate (.ofStream 50) .square .endless (.ofSeed TrafficSettings.endless.seed) ≠
        .ok r := by
  have hundrawable : ¬ TrafficSettings.endless.Drawable := fun h ↦
    absurd (h.bandwidth (by decide +kernel)).2.1 (by decide +kernel)
  exact ⟨Chance.inRange_ofStream 50, by decide, by decide, by decide, by decide, by decide,
    by decide +kernel, generate_ne_ok hundrawable 50 (by decide) (by decide) _⟩

end NetOnChip
