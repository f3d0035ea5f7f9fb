import NetOnChip.Benchmark
import NetOnChip.Cost.Total
import NetOnChip.Failure

/-!
# Events

What a run has to tell, as data. How events are worded is in `NetOnChip.Event.Text`.
-/

namespace NetOnChip

/-- Something that happened during a run. -/
inductive Event (α : Type) where
  /-- A mesh was built. -/
  | builtMesh (width height : UInt32) (routers links : Nat)
  /-- Every tile has a router, so there are no logic blocks. -/
  | noFreeTiles (width height : UInt32)
  /-- There are too few routers for traffic. -/
  | tooFewRouters
  /-- A benchmark was generated. -/
  | generated (routerBlocks logicBlocks flows : Nat)
  /-- A routing algorithm was selected. -/
  | selected (algorithm : Algorithm)
  /-- All flows were routed for the first time. -/
  | routed (flows : Nat) (algorithm : Algorithm) (terms : CostTerms α)
  /-- The factors of the network terms were taken anew. -/
  | normalized (aggregateBandwidthFactor latencyFactor : α)
  /-- An audit found an error. -/
  | auditFailed (cause : Error α)
  /-- An audit found no error. -/
  | auditPassed (flows links : Nat)
  /-- The network terms and their factors before any move. -/
  | initialCosts (costs : Costs α)
  /-- The annealing starts. -/
  | started (moves : Nat) (cost : α)
  /-- A move routed some flows again. -/
  | rerouted (delta : Delta α)
  /-- The temperature was lowered. -/
  | cooled (move : Nat) (temperature cost : α)
  /-- There is nothing to move. -/
  | nothingToMove
  /-- The annealing is over. -/
  | finished (accepted rejected : Nat) (before after : α)
  /-- The network terms after all moves. -/
  | finalCosts (costs : Costs α)
  /-- A directory is created for the report. -/
  | creatingDirectory (path : String)
  /-- The report is written. -/
  | writingReport (path : String)
  /-- How far the links are used. -/
  | linkUsage (peak : α) (congested links : Nat)
  /-- A link carries more than it can. -/
  | congestedLink (link : LinkId) (source sink : Tile) (usage bandwidth : α)
  deriving Repr

/-- How much an event matters. -/
inductive Level where
  | error
  | warning
  | info
  | debug
  deriving DecidableEq, Repr

/-- How much an event matters. -/
def Event.level {α : Type} : Event α → Level
  | .noFreeTiles .. | .tooFewRouters | .nothingToMove | .congestedLink .. => .warning
  | .auditFailed .. => .error
  | .normalized .. | .rerouted .. | .cooled .. => .debug
  | _ => .info

/-- What the generation of a benchmark has to tell. -/
def Benchmark.events {α : Type} (b : Benchmark α) (mesh : MeshSettings α)
    (s : TrafficSettings α) : List (Event α) :=
  let routers := b.topology.routers.size
  let flows := b.traffic.flows.size
  [.builtMesh mesh.width mesh.height routers b.topology.links.size] ++
    (if b.layout.logicBlocks.isEmpty ∧ 0 < s.logicBlockCount then
      [.noFreeTiles b.layout.width b.layout.height]
    else
      []) ++
    (if routers < 2 ∧ 0 < s.flowCount then [.tooFewRouters] else []) ++
    [.generated b.layout.routerBlocks.length b.layout.logicBlocks.length flows]

end NetOnChip
