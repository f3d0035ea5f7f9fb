import NetOnChip.Placement
import NetOnChip.Random.Chance
import NetOnChip.Topology.Mesh
import NetOnChip.Traffic

/-!
# Benchmarks

A benchmark is a mesh with random traffic on it and a placement to start from. Every router carries
one router block. Logic blocks stand on random tiles without a router, where several of them may
share a tile. Traffic flows run between different router blocks.

A tile without a router and a block different from another one are found by rejection, so they are
drawn as often as the patience of the source allows.
-/

namespace NetOnChip

variable {σ α : Type} [Scalar α]

/-! ### Tiles for logic blocks -/

namespace Topology

variable (t : Topology α)

/-- The number of routers on the lowest layer of a grid. -/
def routersOnGrid (width height : UInt32) : Nat :=
  t.routers.toList.countP fun r ↦ r.tile.x < width && r.tile.y < height && r.tile.layer = 0

/-- The number of tiles without a router on a grid of one layer. -/
def freeTileCount (width height : UInt32) : Nat :=
  width.toNat * height.toNat - t.routersOnGrid width height

/-- Draws tiles until one has no router. -/
def searchFreeTile (chance : Chance σ α) (width height : UInt32) : Nat → Draw σ α Tile
  | 0 => fun _ ↦ Attempt.crash .drawsExhausted
  | count + 1 => do
    let x ← chance.below (max width 1).toNat
    let y ← chance.below (max height 1).toNat
    let tile : Tile := ⟨UInt32.ofNat x, UInt32.ofNat y, 0⟩
    match t.routerAt? tile with
    | none => return tile
    | some _ => searchFreeTile chance width height count

/-- A random tile without a router, if the grid has one. -/
def randomFreeTile (chance : Chance σ α) (width height : UInt32) : Draw σ α (Option Tile) := do
  if t.freeTileCount width height = 0 then
    return none
  else
    return some (← t.searchFreeTile chance width height chance.patience)

end Topology

/-! ### Benchmarks -/

/-- The blocks that a placement may move, and the grid that it moves them on. -/
structure Layout where
  /-- The blocks that stand for routers. -/
  routerBlocks : List BlockId
  /-- The other blocks. -/
  logicBlocks : List BlockId
  /-- The number of columns of tiles. -/
  width : UInt32
  /-- The number of rows of tiles. -/
  height : UInt32
  deriving DecidableEq, Repr

/-- A mesh with traffic and a placement. -/
structure Benchmark (α : Type) where
  /-- The mesh. -/
  topology : Topology α
  /-- The traffic. -/
  traffic : Traffic α
  /-- The placement to start from. -/
  placement : Placement
  /-- The blocks and the grid. -/
  layout : Layout
  deriving Repr

namespace MeshSettings

/-- The number of tiles from the first router in a row or column to the last one, both included. It
has to fit into a 32-bit word, also where the coordinates of the routers just fit into one. -/
def extent (s : MeshSettings α) (routers : UInt32) : Attempt α UInt32 :=
  Attempt.word (s.reach routers + 1)

/-- The number of columns of tiles. -/
def gridWidth (s : MeshSettings α) : Attempt α UInt32 :=
  s.extent s.width

/-- The number of rows of tiles. -/
def gridHeight (s : MeshSettings α) : Attempt α UInt32 :=
  s.extent s.height

/-- The numbers of columns and rows of tiles fit into 32-bit words. -/
def GridFits (s : MeshSettings α) : Prop :=
  s.reach s.width + 1 < UInt32.size ∧ s.reach s.height + 1 < UInt32.size

instance (s : MeshSettings α) : Decidable s.GridFits :=
  inferInstanceAs (Decidable (_ ∧ _))

end MeshSettings

namespace Benchmark

/-- Puts a block on every router. -/
def placeRouterBlocks (t : Topology α) (p : Placement) : Placement :=
  ((Id.range t.routers.size).zip t.routers.toList).foldl (fun p (b, r) ↦ p.set b r.tile) p

/-- Puts blocks on random tiles without routers, and stops where there are none. -/
def placeLogicBlocks (chance : Chance σ α) (t : Topology α) (width height : UInt32) :
    List BlockId → Placement → Draw σ α (List BlockId × Placement)
  | [], p => return ([], p)
  | b :: blocks, p => do
    match ← t.randomFreeTile chance width height with
    | none => return ([], p)
    | some tile =>
      let (placed, p) ← placeLogicBlocks chance t width height blocks (p.set b tile)
      return (b :: placed, p)

/-- Draws a block until it differs from a given one. -/
def otherThan (chance : Chance σ α) (blocks : Nat) (source : Nat) : Nat → Draw σ α Nat
  | 0 => fun _ ↦ Attempt.crash .drawsExhausted
  | count + 1 => do
    let sink ← chance.belowWide blocks
    if sink = source then otherThan chance blocks source count else return sink

/-- The priorities that flows are given. -/
def priorities : List α :=
  [1, 1, ((2 : Nat) : α), ((4 : Nat) : α)]

/-- A random flow between two different router blocks. -/
def randomFlow (chance : Chance σ α) (s : TrafficSettings α) (blocks : Nat) (name : String) :
    Draw σ α (Flow α) := do
  let source ← chance.belowWide blocks
  let sink ← otherThan chance blocks source chance.patience
  let bandwidth ←
    if s.minBandwidth < s.maxBandwidth then
      chance.between s.minBandwidth s.maxBandwidth
    else
      pure s.minBandwidth
  let isLimited ← chance.coin (Scalar.clamp 0 1 s.constrainedFraction)
  let maxLatency := if isLimited then s.maxLatency else Scalar.infinity
  let priority := (priorities : List α)[← chance.belowWide 4]?.getD 1
  return ⟨name, ⟨source⟩, ⟨sink⟩, bandwidth, maxLatency, priority⟩

/-- Adds random flows, numbered from `i` on. -/
def addFlows (chance : Chance σ α) (s : TrafficSettings α) (blocks : Nat) :
    Nat → Nat → Traffic α → Draw σ α (Traffic α)
  | 0, _, t => return t
  | count + 1, i, t => do
    let flow ← randomFlow chance s blocks ("flow" ++ toString i)
    addFlows chance s blocks count (i + 1) (t.add flow).2

/-- A random benchmark. -/
def generate (chance : Chance σ α) (mesh : MeshSettings α) (s : TrafficSettings α) :
    Draw σ α (Benchmark α) := do
  let t ← mesh.build
  let width ← mesh.gridWidth
  let height ← mesh.gridHeight
  let routers := t.routers.size
  let logic := if 0 < t.freeTileCount width height then s.logicBlockCount else 0
  let p ← (Placement.ofSize (routers + logic) : Attempt α Placement)
  let p := placeRouterBlocks t p
  let routerBlocks : List BlockId := Id.range routers
  let logicBlocks := (List.range logic).map fun i ↦ (⟨routers + i⟩ : BlockId)
  let (logicBlocks, p) ← placeLogicBlocks chance t width height logicBlocks p
  let traffic := routerBlocks.foldl Traffic.register .empty
  let flows := if 2 ≤ routers then s.flowCount else 0
  let traffic ← addFlows chance s routers flows 0 traffic
  return ⟨t, traffic, p, ⟨routerBlocks, logicBlocks, width, height⟩⟩

end Benchmark

end NetOnChip
