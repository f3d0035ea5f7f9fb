import NetOnChip.Anneal.Proposal
import NetOnChip.Event
import NetOnChip.Placer
import NetOnChip.Tracker.Audit

/-!
# Runs

A run generates a benchmark, routes its traffic and either reports on that or improves the placement
by simulated annealing first. What it has to tell is kept in a journal, which survives an error.

Annealing tries one random move after the other. A move that does not raise the total cost is
accepted, another one only by chance, the less so the more it raises the cost and the lower the
temperature is. Now and then the temperature is lowered, the factors of the costs are taken anew,
and the tracker is audited.
-/

namespace NetOnChip

variable {σ α : Type} [Scalar α]

/-- A computation that may fail and keeps a journal of events. -/
abbrev Journal (α : Type) := ExceptT (Failure α) (StateM (Array (Event α)))

namespace Journal

/-- Writes an event into the journal. -/
def write (e : Event α) : Journal α Unit :=
  modify (·.push e)

/-- Goes on with the value of an attempt. -/
def ofAttempt {β : Type} (a : Attempt α β) : Journal α β :=
  fun journal ↦ (a, journal)

/-- What a computation comes to when the journal is empty at first. -/
def run {β : Type} (m : Journal α β) : Attempt α β × Array (Event α) :=
  m #[]

end Journal

open Journal

/-- Audits a tracker and writes the result into the journal. -/
def Tracker.auditIn (t : Tracker α) (c : Costs α) (tolerance : α) (p : Placement) :
    Journal α Unit := do
  match t.audit c tolerance p with
  | .ok () => write (.auditPassed t.traffic.flows.size t.topology.links.size)
  | .error e =>
    match e with
    | .error .notInitialized => pure ()
    | .error cause => write (.auditFailed cause)
    | .fault _ => pure ()
    ofAttempt (.error e)

/-- Takes the factors of the network terms anew and writes them into the journal. -/
def Costs.normalizeIn (c : Costs α) (w : Weights α) : Journal α (Costs α) := do
  let c := c.normalize w
  write (.normalized c.aggregateBandwidthFactor c.latencyFactor)
  return c

/-! ### Setting up -/

/-- Selects a routing algorithm by its name. -/
def Algorithm.select (name : String) : Journal α Algorithm := do
  match Algorithm.ofName? name with
  | none => ofAttempt (Attempt.fail (.unknownAlgorithm name))
  | some a =>
    write (.selected a)
    return a

/-- A benchmark whose traffic is routed. -/
structure Setup (α : Type) where
  /-- The placement, its costs and the tracker. -/
  placer : Placer α
  /-- The blocks and the grid. -/
  layout : Layout
  deriving Repr

/-- Generates a benchmark and routes its traffic. The costs are loaded and normalized. -/
def Setup.make (chance : Chance σ α) (source : σ) (s : Settings α) : Journal α (Setup α) := do
  let (b, _) ← ofAttempt ((Benchmark.generate chance s.mesh s.traffic).run source)
  (b.events s.mesh s.traffic).forM write
  let a ← Algorithm.select s.routing.algorithm
  let o := (Tracker.start (.ofTopology b.topology) b.traffic a s.routing.weights).route b.placement
  let terms ← ofAttempt o.result
  write (.routed b.traffic.flows.size a terms)
  let (costs, tracker) ← ofAttempt (o.state.loadCosts .initial)
  let costs ← costs.normalizeIn s.routing.weights
  return ⟨⟨tracker, b.placement, costs⟩, b.layout⟩

/-! ### Annealing -/

/-- The state of the annealing between two moves. -/
structure Annealer (σ α : Type) where
  /-- The placement, its costs and the tracker. -/
  placer : Placer α
  /-- Where random choices come from. -/
  source : σ
  /-- The temperature. -/
  temperature : α
  /-- The number of moves that were accepted. -/
  accepted : Nat
  /-- The number of moves that were undone. -/
  rejected : Nat

namespace Annealer

variable (s : Settings α) (layout : Layout) (chance : Chance σ α) (a : Annealer σ α)

/-- Whether to accept a move that changes the total cost. A move that does not raise it is always
accepted, and then nothing is drawn. -/
def decide (change : α) : Draw σ α Bool :=
  if change ≤ 0 then return true else chance.climb change a.temperature

/-- Accepts a move that was tried, or undoes it. -/
def conclude (placer : Placer α) (m : Move) (d : Delta α) (wanted : Bool) :
    Attempt α (Annealer σ α) :=
  if wanted then
    .ok { a with placer := placer.accept d, accepted := a.accepted + 1 }
  else do
    let o := placer.reject m
    let _ ← o.result
    return { a with placer := o.state, rejected := a.rejected + 1 }

/-- Tries a move and decides about it. -/
def attempt (m : Move) : Journal α (Annealer σ α) := do
  let o := a.placer.tryMove m
  let d ← ofAttempt o.result
  if !d.isNoop then
    write (.rerouted d)
  let (wanted, source) ← ofAttempt ((a.decide chance (o.state.costChange d)).run a.source)
  ofAttempt (({ a with source } : Annealer σ α).conclude o.state m d wanted)

/-- Lowers the temperature and takes the factors of the costs anew, if enough moves were made. -/
def cool (moves : Nat) : Journal α (Annealer σ α) := do
  let interval := s.annealing.movesPerTemperature
  if 0 < interval ∧ moves % interval = 0 then
    let temperature := a.temperature * s.annealing.coolingRate
    let costs ← a.placer.costs.normalizeIn s.routing.weights
    write (.cooled moves temperature costs.total)
    return { a with temperature, placer := { a.placer with costs } }
  else
    return a

/-- Audits the tracker. -/
def audit : Journal α Unit :=
  a.placer.tracker.auditIn a.placer.costs s.annealing.errorTolerance a.placer.placement

/-- Audits the tracker, if enough moves were made. -/
def auditAt (moves : Nat) : Journal α Unit := do
  let interval := s.annealing.auditInterval
  if 0 < interval ∧ moves % interval = 0 then
    a.audit s

/-- Makes the next move, unless there is nothing to move. Before it, `moves` moves were made. -/
def step (moves : Nat) : Journal α (Option (Annealer σ α)) := do
  let (proposal, source) ← ofAttempt
    ((layout.propose chance s.annealing.routerMoveFraction a.placer.tracker.topology
      a.placer.placement).run a.source)
  let a := { a with source }
  match proposal with
  | none =>
    write .nothingToMove
    return none
  | some m =>
    let a ← a.attempt chance m
    let a ← a.cool s (moves + 1)
    a.auditAt s (moves + 1)
    return some a

/-- Makes a number of moves. -/
def iterate : Nat → Nat → Annealer σ α → Journal α (Annealer σ α)
  | 0, _, a => return a
  | count + 1, moves, a => do
    match ← a.step s layout chance moves with
    | none => return a
    | some a => iterate count (moves + 1) a

end Annealer

/-! ### Reporting -/

/-- Where a report is written. -/
structure ReportSite where
  /-- The file. -/
  path : String
  /-- The directory of the file, if it has to be created. -/
  newDirectory : Option String

/-- Announces the report. -/
def announce (site : Option ReportSite) : Journal α Unit := do
  match site with
  | none => pure ()
  | some site =>
    match site.newDirectory with
    | none => pure ()
    | some directory => write (.creatingDirectory directory)
    write (.writingReport site.path)

/-- The largest share of a link that is in use. -/
def Network.peakUtilization (n : Network α) : α :=
  n.loads.foldl (fun peak (link, u) ↦ Scalar.larger peak (link.utilization u)) 0

/-- Writes how far the links are used into the journal. -/
def Network.reportUsage (n : Network α) : Journal α Unit := do
  let links := n.topology.links.size
  write (.linkUsage n.peakUtilization n.congestedCount links)
  ((Id.range links).zip n.loads).forM fun (l, link, u) ↦ do
    if link.isCongested u then
      let source ← ofAttempt (n.topology.router link.source)
      let sink ← ofAttempt (n.topology.router link.sink)
      write (.congestedLink l source.tile sink.tile u link.bandwidth)

/-! ### The two kinds of runs -/

/-- Routes the traffic of a random benchmark once. -/
def runRouting (chance : Chance σ α) (source : σ) (s : Settings α) (site : Option ReportSite) :
    Journal α (Tracker α) := do
  let ⟨placer, _⟩ ← Setup.make chance source s
  let t := placer.tracker
  t.auditIn placer.costs s.annealing.errorTolerance placer.placement
  write (.initialCosts placer.costs)
  announce site
  t.network.reportUsage
  return t

/-- Improves the placement of a random benchmark by annealing. The random choices of the annealing
come from the same source again as those of the benchmark. -/
def runPlacement (chance : Chance σ α) (source : σ) (s : Settings α) (site : Option ReportSite) :
    Journal α (Tracker α) := do
  let ⟨placer, layout⟩ ← Setup.make chance source s
  let a : Annealer σ α := ⟨placer, source, s.annealing.initialTemperature, 0, 0⟩
  a.audit s
  let before := placer.costs.total
  write (.started s.annealing.moves before)
  let a ← Annealer.iterate s layout chance s.annealing.moves 0 a
  a.audit s
  let costs := a.placer.costs
  write (.finished a.accepted a.rejected before costs.total)
  write (.finalCosts costs)
  let t := a.placer.tracker
  announce site
  t.network.reportUsage
  return t

end NetOnChip
