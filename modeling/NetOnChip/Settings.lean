/-!
# Settings

What a run can be told: the network to build, the traffic to generate on it, how costs are
weighted, and how the placement is annealed. Every setting has a default.
-/

namespace NetOnChip

/-- How the cost of the network enters the total cost of a placement. -/
inductive Mode where
  /-- The cost of the network is weighted and added to wirelength and timing. -/
  | combined
  /-- The cost of the network is all that counts. -/
  | networkOnly
  deriving DecidableEq, Repr

/-- How costs are weighted. -/
structure Weights (α : Type) where
  /-- The weight of the cost of the network in the total cost. -/
  placement : α
  /-- The weight of latency. -/
  latency : α
  /-- The weight of latency beyond the limit of a flow. -/
  overrun : α
  /-- What the total cost consists of. -/
  mode : Mode
  deriving Repr

/-- How the flows are routed and what that costs. -/
structure RoutingSettings (α : Type) where
  /-- The name of the routing algorithm. -/
  algorithm : String
  /-- How costs are weighted. -/
  weights : Weights α
  deriving Repr

/-- The mesh to build. -/
structure MeshSettings (α : Type) where
  /-- The number of columns of routers. -/
  width : UInt32
  /-- The number of rows of routers. -/
  height : UInt32
  /-- The number of tiles from one router to the next; zero counts as one. -/
  spacing : UInt32
  /-- The bandwidth that every link can carry. -/
  linkBandwidth : α
  /-- The time that it takes to pass a link. -/
  linkLatency : α
  /-- The time that it takes to pass a router. -/
  routerLatency : α
  deriving Repr

/-- The traffic to generate. -/
structure TrafficSettings (α : Type) where
  /-- The number of traffic flows. -/
  flowCount : Nat
  /-- The least bandwidth of a flow. -/
  minBandwidth : α
  /-- The bandwidth that no flow reaches. -/
  maxBandwidth : α
  /-- The share of the flows whose latency is limited. -/
  constrainedFraction : α
  /-- The limit of their latency. -/
  maxLatency : α
  /-- The number of logic blocks. -/
  logicBlockCount : Nat
  /-- The number that all random choices are derived from. -/
  seed : UInt64
  deriving Repr

/-- How the placement is annealed. -/
structure AnnealingSettings (α : Type) where
  /-- The number of moves to try. -/
  moves : Nat
  /-- The temperature at the start. -/
  initialTemperature : α
  /-- What the temperature is multiplied by when it is lowered. -/
  coolingRate : α
  /-- The number of moves between two changes of the temperature; zero for no change. -/
  movesPerTemperature : Nat
  /-- The share of the moves that swap routers. -/
  routerMoveFraction : α
  /-- The number of moves between two audits; zero for none in between. -/
  auditInterval : Nat
  /-- The relative error that an audit lets pass. -/
  errorTolerance : α
  /-- The file to write a report to. -/
  reportFile : Option String
  deriving Repr

/-- All settings. -/
structure Settings (α : Type) where
  /-- How the flows are routed and what that costs. -/
  routing : RoutingSettings α
  /-- The mesh to build. -/
  mesh : MeshSettings α
  /-- The traffic to generate. -/
  traffic : TrafficSettings α
  /-- How the placement is annealed. -/
  annealing : AnnealingSettings α
  deriving Repr

/-! ### Defaults -/

/-- The default weights. -/
def Weights.default : Weights Float where
  placement := 0.6
  latency := 0.02
  overrun := 0.6
  mode := .combined

/-- The default routing. -/
def RoutingSettings.default : RoutingSettings Float where
  algorithm := "bfs_routing"
  weights := .default

/-- The default mesh. -/
def MeshSettings.default : MeshSettings Float where
  width := 4
  height := 4
  spacing := 4
  linkBandwidth := 1.0e9
  linkLatency := 1.0e-9
  routerLatency := 1.0e-9

/-- The default traffic. -/
def TrafficSettings.default : TrafficSettings Float where
  flowCount := 24
  minBandwidth := 1.0e6
  maxBandwidth := 2.0e8
  constrainedFraction := 0.25
  maxLatency := 6.0e-9
  logicBlockCount := 32
  seed := 1

/-- The default annealing. -/
def AnnealingSettings.default : AnnealingSettings Float where
  moves := 5000
  initialTemperature := 0.05
  coolingRate := 0.95
  movesPerTemperature := 100
  routerMoveFraction := 0.8
  auditInterval := 500
  errorTolerance := 0.01
  reportFile := none

/-- The default settings. -/
def Settings.default : Settings Float where
  routing := .default
  mesh := .default
  traffic := .default
  annealing := .default

end NetOnChip
