import NetOnChip.Proofs.Benchmark
import NetOnChip.Proofs.Cost.Flow
import NetOnChip.Proofs.Routing.Exhaustive
import NetOnChip.Proofs.Routing.Mesh

/-!
# Settings that can be run

Settings can be run (`Settings.Runnable`) if they name a routing algorithm, if their mesh and its
grid fit into words, if links, blocks and flows can be numbered by words, and if their quantities
are exact numbers. Whether a share is between zero and one does not matter, and neither does the
sign of a latency, a bandwidth or a weight.

Whatever benchmark is generated for them, its costs are numbers, and every placement that keeps to
its layout can be routed by every algorithm (`Settings.Describes.routable`).
-/

namespace NetOnChip

/-! ### Routes in a mesh -/

namespace MeshSettings.IsMesh

variable {s : MeshSettings Exact} {t : Topology Exact}

theorem isNumber_router_latency (h : s.IsMesh t) (hrouter : s.routerLatency.isNumber) :
    ∀ router ∈ t.routers, router.latency.isNumber := by
  intro router hmem
  obtain ⟨p, -, rfl⟩ := h.mem_routers_iff.1 hmem
  exact hrouter

theorem isNumber_link_latency (h : s.IsMesh t) (hlink : s.linkLatency.isNumber) :
    ∀ link ∈ t.links, link.latency.isNumber := by
  intro link hmem
  obtain ⟨i, hi⟩ := Array.mem_iff_getElem?.1 hmem
  obtain ⟨p, q, -, -, -, rfl⟩ := h.of_link (l := ⟨i⟩) hi
  exact hlink

/-- **Every algorithm finds a route** between any two positions of the mesh. -/
theorem exists_route (h : s.IsMesh t) (hfits : s.Fits) (hrouter : s.routerLatency.isNumber)
    (hlink : s.linkLatency.isNumber) (a : Algorithm) {p q : Nat × Nat} (hp : p ∈ s.positions)
    (hq : q ∈ s.positions) : ∃ found, a.route t (s.routerId p) (s.routerId q) = .ok found := by
  obtain ⟨fewest, hfewest, hwalk, -⟩ := h.exists_route_fewestHops hfits hp hq
  cases a with
  | fewestHops => exact ⟨fewest, hfewest⟩
  | dimensionOrder =>
    exact (h.exists_route_dimensionOrder hfits hp hq).imp fun _ hfound ↦ hfound.1
  | leastLatency =>
    exact LeastLatency.exists_route (h.isNumber_router_latency hrouter)
      (h.isNumber_link_latency hlink) h.built.wellFormed h.closed (h.routerId_lt hp) hwalk

end MeshSettings.IsMesh

/-- A placement that keeps to a layout in a mesh houses the flows between its router blocks. -/
theorem Layout.Holds.houses {α : Type} {s : MeshSettings α} {t : Topology α} {l : Layout}
    {p : Placement} {traffic : Traffic α} (h : l.Holds t p) (hmesh : s.IsMesh t)
    (hflows : ∀ flow ∈ traffic.flows,
      flow.source ∈ l.routerBlocks ∧ flow.sink ∈ l.routerBlocks) : s.Houses traffic p := by
  have hblock : ∀ b ∈ l.routerBlocks, ∃ q ∈ s.positions, p.tile? b = some (s.tile q) := by
    intro b hb
    obtain ⟨router, hrouter, htile⟩ := h.exists_router hb
    obtain ⟨q, hq, rfl⟩ := hmesh.mem_routers_iff.1 hrouter
    exact ⟨q, hq, htile⟩
  exact fun flow hflow ↦ ⟨hblock _ (hflows flow hflow).1, hblock _ (hflows flow hflow).2⟩

/-! ### Settings -/

namespace Settings

/-- Settings that can be run. -/
structure Runnable (s : Settings Exact) : Prop where
  /-- There is a routing algorithm of the name. -/
  algorithm : ∃ a, Algorithm.ofName? s.routing.algorithm = some a
  /-- The numbers and coordinates of all routers fit into words. -/
  fits : s.mesh.Fits
  /-- So do the numbers of all links. -/
  links : s.mesh.LinksFit
  /-- So do the numbers of columns and rows of tiles. -/
  grid : s.mesh.GridFits
  /-- So do the numbers of all blocks. -/
  blocks : s.mesh.width.toNat * s.mesh.height.toNat + s.traffic.logicBlockCount ≤ UInt32.size
  /-- So do those of the flows. -/
  flows : s.traffic.flowCount ≤ UInt32.size
  /-- The time to pass a router is a number. -/
  routerLatency : s.mesh.routerLatency.isNumber
  /-- The time to pass a link is a number. -/
  linkLatency : s.mesh.linkLatency.isNumber
  /-- The least bandwidth is a number. -/
  minBandwidth : s.traffic.minBandwidth.isNumber
  /-- The bound of the bandwidths is a number. -/
  maxBandwidth : s.traffic.maxBandwidth.isNumber
  /-- The share of limited flows is a number. -/
  constrainedFraction : s.traffic.constrainedFraction.isNumber
  /-- The limit of their latency is a number, or there is none. -/
  maxLatency : s.traffic.maxLatency ≠ .infinite true
  /-- The weight of latencies is a number. -/
  latency : s.routing.weights.latency.isNumber
  /-- The weight of overruns is a number. -/
  overrun : s.routing.weights.overrun.isNumber
  /-- The share of swaps is a number. -/
  routerMoveFraction : s.annealing.routerMoveFraction.isNumber
  /-- The tolerance of audits is not negative. -/
  errorTolerance : 0 ≤ s.annealing.errorTolerance

/-- The mesh, the layout and the flows of a benchmark that belongs to settings. -/
structure Describes (s : Settings Exact) (l : Layout) (t : Topology Exact)
    (traffic : Traffic Exact) : Prop where
  /-- The topology is the mesh. -/
  build_eq : s.mesh.build = .ok t
  /-- The blocks are different. -/
  distinct : l.Distinct
  /-- The registry of the flows is exact. -/
  built : traffic.Built
  /-- Flows run between router blocks. -/
  flows : ∀ flow ∈ traffic.flows, flow.source ∈ l.routerBlocks ∧ flow.sink ∈ l.routerBlocks
  /-- All costs are numbers. -/
  numeric : Numeric t traffic s.routing.weights
  /-- All identifiers are words. -/
  inWords : s.mesh.InWords l t traffic

variable {s : Settings Exact} {l : Layout} {t : Topology Exact} {traffic : Traffic Exact}
  {p : Placement}

namespace Runnable

end Runnable

/-- **Every placement that keeps to the layout can be routed**, by every algorithm. -/
theorem Describes.routable (h : s.Describes l t traffic) (hs : s.Runnable) (hp : l.Holds t p)
    (a : Algorithm) : Ledger.Routable traffic a t p := by
  have hmesh := MeshSettings.isMesh_of_build h.build_eq
  exact hmesh.routable hs.fits (hp.houses hmesh h.flows) fun _ hq _ hr ↦
    hmesh.exists_route hs.fits hs.routerLatency hs.linkLatency a hq hr

end Settings

/-- **A sound benchmark** belongs to its settings. -/
theorem Benchmark.Sound.describes {s : Settings Exact} {b : Benchmark Exact}
    (h : b.Sound s.mesh s.traffic) (hs : s.Runnable) :
    s.Describes b.layout b.topology b.traffic := by
  have hmesh := MeshSettings.isMesh_of_build h.topology
  have hflows := h.traffic.flows
  refine ⟨h.topology, h.distinct, h.traffic.built, fun flow hflow ↦ ?_, ?_,
    h.inWords hs.links hs.blocks hs.flows⟩
  · rw [h.routerBlocks, Id.mem_range, Id.mem_range]
    exact ⟨(hflows flow hflow).source_lt, (hflows flow hflow).sink_lt⟩
  · refine ⟨hmesh.isNumber_router_latency hs.routerLatency,
      hmesh.isNumber_link_latency hs.linkLatency, fun flow hflow ↦ ?_, fun flow hflow ↦ ?_,
      fun flow hflow ↦ ?_, hs.latency, hs.overrun⟩
    · rcases (hflows flow hflow).bandwidth with heq | ⟨hle, hlt⟩
      · exact heq ▸ hs.minBandwidth
      · exact Exact.isNumber_of_between hs.minBandwidth hs.maxBandwidth hle hlt
    · have hpriority := (hflows flow hflow).priority
      have hall : ∀ a ∈ (Benchmark.priorities : List Exact), a.isNumber := by decide
      exact hall _ hpriority
    · rcases (hflows flow hflow).maxLatency with heq | heq
      · exact heq ▸ hs.maxLatency
      · rw [heq]
        decide

end NetOnChip
