import NetOnChip.Proofs.Benchmark
import NetOnChip.Proofs.Random.Promises
import NetOnChip.Proofs.Tracker.Agreement

/-!
# What a run starts from

Setting up a run may fail in many ways, and nothing is assumed of the settings here. But if it comes
to a placer, then this starts from a benchmark that was generated (`Setup.make_starts`): the layout,
the placement, the topology and the traffic are those of the benchmark, the tracker is in step with
the placement, and the costs are those of the routes with factors that were just taken. Whatever is
promised of the flows that are drawn is true of the flows of the tracker (`Setup.make_promises`).

The benchmark has a mesh and an exact registry of its flows (`Benchmark.generate_promises`). If the
indices that are drawn are in range, then its blocks are placed as they should be
(`Benchmark.generate_laid`).
-/

namespace NetOnChip

variable {σ α : Type} [Scalar α] {chance : Chance σ α}

/-! ### Generating a benchmark -/

namespace Benchmark

variable {Q : Flow α → Prop} {mesh : MeshSettings α} {s : TrafficSettings α}

/-- Flows that are added to traffic that was built. -/
theorem addFlows_promises (hflow : ∀ blocks name, Draw.Promises Q (randomFlow chance s blocks name))
    (blocks count i : Nat) {t : Traffic α} (ht : t.Built) (hQ : ∀ flow ∈ t.flows, Q flow) :
    Draw.Promises (fun t ↦ t.Built ∧ ∀ flow ∈ t.flows, Q flow)
      (addFlows chance s blocks count i t) := by
  induction count generalizing i t with
  | zero => exact Draw.promises_pure ⟨ht, hQ⟩
  | succ count ih =>
    refine (hflow blocks _).bind fun flow hnew ↦ ih (i + 1) (.add flow ht) fun other hother ↦ ?_
    rw [Traffic.flows_add] at hother
    rcases Array.mem_push.1 hother with hother | rfl
    · exact hQ other hother
    · exact hnew

/-- **A benchmark that is generated** has the mesh of the settings, and its registry of flows is
exact. -/
theorem generate_promises
    (hflow : ∀ blocks name, Draw.Promises Q (randomFlow chance s blocks name)) :
    Draw.Promises (fun b ↦ mesh.IsMesh b.topology ∧ b.traffic.Built ∧ ∀ flow ∈ b.traffic.flows,
      Q flow) (generate chance mesh s) := by
  refine (Draw.promises_lift fun t ht ↦ MeshSettings.isMesh_of_build ht).bind fun t hmesh ↦ ?_
  refine Draw.promises_bind fun width ↦ Draw.promises_bind fun height ↦ ?_
  refine Draw.promises_bind fun p ↦ Draw.promises_bind fun placed ↦ ?_
  obtain ⟨hbuilt, -, hnone⟩ :=
    foldl_register (t := (.empty : Traffic α)) (Id.range t.routers.size) .empty (Id.nodup_range _)
  have hQ : ∀ flow ∈ ((Id.range t.routers.size).foldl Traffic.register .empty).flows, Q flow := by
    intro flow hmem
    rw [hnone] at hmem
    exact absurd hmem (Array.not_mem_empty flow)
  exact (addFlows_promises hflow _ _ 0 hbuilt hQ).bind fun traffic htraffic ↦
    Draw.promises_pure ⟨hmesh, htraffic⟩

/-- Nothing needs to be promised of the flows. -/
theorem generate_isMesh : Draw.Promises (fun b ↦ mesh.IsMesh b.topology ∧ b.traffic.Built)
    (generate chance mesh s) :=
  (generate_promises (Q := fun _ ↦ True) fun _ _ ↦ Draw.promises_true.mono fun _ _ ↦ trivial).mono
    fun _ h ↦ ⟨h.1, h.2.1⟩

/-- **The blocks of a benchmark that is generated** are placed, and there are no others. -/
theorem generate_laid (hc : chance.Indexes) :
    Draw.Promises (Laid s.logicBlockCount) (generate chance mesh s) := by
  refine Draw.promises_bind fun t ↦ Draw.promises_bind fun width ↦
    Draw.promises_bind fun height ↦ ?_
  refine (Draw.promises_lift fun p ↦ Placement.size_of_ofSize).bind fun p hsize ↦ ?_
  refine (placeLogicBlocks_laid hc rfl hsize).promises.bind fun (placed, p') hlaid ↦ ?_
  exact Draw.promises_bind fun traffic ↦ Draw.promises_pure (hlaid traffic)

end Benchmark

/-! ### Setting up -/

open Journal

theorem Costs.normalizeIn_promises (c : Costs α) (w : Weights α) :
    Promises (· = c.normalize w) (c.normalizeIn w) :=
  promises_bind fun _ ↦ promises_pure rfl

/-- What a run starts from, once a benchmark was generated. -/
structure Setup.Starts (s : Settings α) (b : Benchmark α) (u : Setup α) : Prop where
  /-- The layout is that of the benchmark. -/
  layout_eq : u.layout = b.layout
  /-- So is the placement. -/
  placement_eq : u.placer.placement = b.placement
  /-- The topology is that of the benchmark. -/
  topology_eq : u.placer.tracker.topology = b.topology
  /-- It is the mesh of the settings. -/
  isMesh : s.mesh.IsMesh u.placer.tracker.topology
  /-- So is the traffic. -/
  traffic_eq : u.placer.tracker.traffic = b.traffic
  /-- Costs are weighted as the settings say. -/
  weights_eq : u.placer.tracker.weights = s.routing.weights
  /-- The tracker is in step with the placement. -/
  synced : u.placer.tracker.Synced u.placer.placement
  /-- The costs of the network are those of the routes, and the factors were taken from them. -/
  costs_eq : u.placer.costs = ({ (Costs.initial : Costs α) with
    aggregateBandwidth := (u.placer.tracker.totalsFor u.placer.placement).aggregateBandwidth
    latency := (u.placer.tracker.totalsFor u.placer.placement).latency } :
      Costs α).normalize s.routing.weights

/-- **Setting up starts from a benchmark** of which everything is true that is promised when one is
generated. -/
theorem Setup.make_starts {P : Benchmark α → Prop} {s : Settings α} (source : σ)
    (hgenerate : Draw.Promises P (Benchmark.generate chance s.mesh s.traffic)) :
    Promises (fun u ↦ ∃ b, P b ∧ u.Starts s b) (Setup.make chance source s) := by
  refine promises_ofAttempt.bind fun (b, _) hb ↦ ?_
  obtain ⟨hP, hmesh, hbuilt⟩ := hgenerate.and Benchmark.generate_isMesh _ _ _ hb
  refine promises_bind fun _ ↦ promises_bind fun a ↦ ?_
  refine promises_ofAttempt.bind fun terms hterms ↦ promises_bind fun _ ↦ ?_
  obtain ⟨hsynced, halike⟩ :=
    Tracker.synced_route_fresh hmesh.built.wellFormed hmesh.closed hbuilt hterms
  refine promises_ofAttempt.bind fun (c, t) hc ↦ ?_
  cases (hsynced.loadCosts_eq .initial).symm.trans hc
  refine (Costs.normalizeIn_promises _ _).bind fun c hc ↦ ?_
  subst hc
  exact promises_pure ⟨b, hP, rfl, rfl, halike.topology_eq, halike.topology_eq ▸ hmesh,
    halike.traffic_eq, halike.weights_eq, hsynced, rfl⟩

/-- **Setting up** comes to a tracker in step with the placement, to costs that were taken from its
routes, and to factors that were taken from these costs. -/
theorem Setup.make_promises {Q : Flow α → Prop} {s : Settings α} (source : σ)
    (hflow : ∀ blocks name,
      Draw.Promises Q (Benchmark.randomFlow chance s.traffic blocks name)) :
    Promises
      (fun u ↦ s.mesh.IsMesh u.placer.tracker.topology ∧
        (∀ flow ∈ u.placer.tracker.traffic.flows, Q flow) ∧
        u.placer.tracker.weights = s.routing.weights ∧
        u.placer.tracker.Synced u.placer.placement ∧
        u.placer.costs = ({ (Costs.initial : Costs α) with
          aggregateBandwidth :=
            (u.placer.tracker.totalsFor u.placer.placement).aggregateBandwidth
          latency := (u.placer.tracker.totalsFor u.placer.placement).latency } :
            Costs α).normalize s.routing.weights)
      (Setup.make chance source s) := by
  refine (make_starts source (Benchmark.generate_promises hflow)).mono ?_
  rintro u ⟨b, ⟨-, -, hQ⟩, h⟩
  exact ⟨h.isMesh, h.traffic_eq ▸ hQ, h.weights_eq, h.synced, h.costs_eq⟩

end NetOnChip
