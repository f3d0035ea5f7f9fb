import NetOnChip.Dictionary
import NetOnChip.Failure

/-!
# Traffic

Traffic flows run between logical router blocks. The registry keeps, for every router block, the
flows that start or end at it, in the order in which they were added. A block becomes a router
block when it is registered or when a flow first mentions it. Router blocks are listed in that order
as well, because a dictionary has none.
-/

namespace NetOnChip

/-- A demand for bandwidth between two blocks. -/
structure Flow (α : Type) where
  /-- The name of the flow. -/
  name : String
  /-- The router block that the flow starts at. -/
  source : BlockId
  /-- The router block that the flow ends at. -/
  sink : BlockId
  /-- The bandwidth that the flow needs. -/
  bandwidth : α
  /-- The latency that the flow should not exceed; infinite where there is no limit. -/
  maxLatency : α
  /-- How much the flow counts. -/
  priority : α
  deriving Repr

/-- Whether the latency of a flow is limited. -/
def Flow.isConstrained {α : Type} [Scalar α] (f : Flow α) : Bool :=
  Scalar.isFinite f.maxLatency

/-- The traffic flows and the blocks that they run between. -/
structure Traffic (α : Type) where
  /-- The flows in the order in which they were added. -/
  flows : Array (Flow α)
  /-- For every router block the flows that start or end at it. -/
  flowsByBlock : Dictionary BlockId (List FlowId)
  /-- The router blocks in the order in which they were first mentioned. -/
  routerBlocks : List BlockId
  deriving Repr

namespace Traffic

variable {α : Type} (t : Traffic α)

/-- No flows and no router blocks. -/
def empty : Traffic α :=
  ⟨#[], .empty, []⟩

/-- Whether a block is a router block. -/
def isRouterBlock (b : BlockId) : Bool :=
  t.flowsByBlock.contains b

/-- The flows that start or end at a block, in order. A block that is no router block has none. -/
def flowsOf (b : BlockId) : List FlowId :=
  (t.flowsByBlock.get? b).getD []

/-- The flow with a given identifier. -/
def flow (f : FlowId) : Attempt α (Flow α) :=
  Attempt.entry t.flows f

/-- All flow identifiers, in order. -/
def flowIds : List FlowId :=
  Id.range t.flows.size

/-- Makes a block a router block, even if no flow mentions it. -/
def register (b : BlockId) : Traffic α :=
  if t.flowsByBlock.contains b then
    t
  else
    { t with
      flowsByBlock := t.flowsByBlock.insert b []
      routerBlocks := t.routerBlocks ++ [b] }

/-- Adds a flow to those of a router block. -/
def associate (f : FlowId) (b : BlockId) : Traffic α :=
  { t with flowsByBlock := t.flowsByBlock.modify b (· ++ [f]) }

/-- Adds a flow. A flow from a block to itself is listed once at that block. -/
def add (flow : Flow α) : FlowId × Traffic α :=
  let f : FlowId := ⟨t.flows.size⟩
  let t := { t with flows := t.flows.push flow }
  let t := ((t.register flow.source).register flow.sink).associate f flow.source
  (f, if flow.sink = flow.source then t else t.associate f flow.sink)

end Traffic

end NetOnChip
