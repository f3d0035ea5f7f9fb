import NetOnChip.Settings
import NetOnChip.Settings.Reader

/-!
# Settings from documents

A section of the settings is a table whose keys are the names of the settings. Missing keys leave a
setting at its default, and keys that no setting has are passed over. A section may also be written
as a list, which gives the settings in their order.

A setting of the wrong type is an error. Where a number with a fraction is expected a whole number
will do, but not the other way round.
-/

namespace NetOnChip

namespace Settings

/-- The value of a setting, found by its position in the section and by its key. -/
abbrev Section := Nat → String → Option Setting

/-- A value read as a section. -/
def toSection? : Setting → Option Section
  | .table _ e => some fun _ key ↦ e.lookup key
  | .list items => some fun i _ ↦ items[i]?
  | .tables items => some fun i _ ↦ (items.reverse[i]?).map fun e ↦ .table .header e
  | .moment => some fun _ _ ↦ none
  | _ => none

/-- A setting that may be missing. -/
def field {β : Type} (s : Section) (decode : Setting → Option β) (i : Nat) (key : String)
    (default : β) : Option β :=
  match s i key with
  | some value => decode value
  | none => some default

/-- A text. -/
def text? : Setting → Option String
  | .text s => some s
  | _ => none

/-- A number. -/
def real? : Setting → Option Float
  | .real a => some a
  | .whole n => some (Float.ofInt n)
  | _ => none

/-- A natural number below a bound. -/
def natural? (bound : Nat) : Setting → Option Nat
  | .whole n => if 0 ≤ n ∧ n < bound then some n.toNat else none
  | _ => none

/-- A natural number of 32 bits. -/
def word? (value : Setting) : Option UInt32 :=
  (natural? UInt32.size value).map .ofNat

/-- A natural number of 64 bits. -/
def wide? (value : Setting) : Option Nat :=
  natural? UInt64.size value

/-- The mode with a given name. -/
def modeNamed? : String → Option Mode
  | "combined" => some .combined
  | "noc_only" => some .networkOnly
  | _ => none

/-- Whether a value holds nothing. -/
def isVoid : Setting → Bool
  | .table _ [] | .list [] => true
  | _ => false

/-- A mode. It may be written as its name, or as the only key of a table that leads to nothing. -/
def mode? : Setting → Option Mode
  | .text name => modeNamed? name
  | .table _ [(name, value)] => if isVoid value then modeNamed? name else none
  | _ => none

/-- The settings of the section `noc`. -/
def routing? (s : Section) : Option (RoutingSettings Float) := do
  let d := RoutingSettings.default
  return {
    algorithm := ← field s text? 0 "routing_algorithm" d.algorithm
    weights := {
      placement := ← field s real? 1 "placement_weighting" d.weights.placement
      latency := ← field s real? 2 "latency_weighting" d.weights.latency
      overrun := ← field s real? 3 "latency_constraints_weighting" d.weights.overrun
      mode := ← field s mode? 4 "mode" d.weights.mode } }

/-- The settings of the section `topology`. -/
def mesh? (s : Section) : Option (MeshSettings Float) := do
  let d := MeshSettings.default
  return {
    width := ← field s word? 0 "mesh_width" d.width
    height := ← field s word? 1 "mesh_height" d.height
    spacing := ← field s word? 2 "router_spacing" d.spacing
    linkBandwidth := ← field s real? 3 "link_bandwidth" d.linkBandwidth
    linkLatency := ← field s real? 4 "link_latency" d.linkLatency
    routerLatency := ← field s real? 5 "router_latency" d.routerLatency }

/-- The settings of the section `traffic`. -/
def traffic? (s : Section) : Option (TrafficSettings Float) := do
  let d := TrafficSettings.default
  return {
    flowCount := ← field s wide? 0 "num_flows" d.flowCount
    minBandwidth := ← field s real? 1 "min_bandwidth" d.minBandwidth
    maxBandwidth := ← field s real? 2 "max_bandwidth" d.maxBandwidth
    constrainedFraction := ← field s real? 3 "constrained_fraction" d.constrainedFraction
    maxLatency := ← field s real? 4 "max_latency" d.maxLatency
    logicBlockCount := ← field s wide? 5 "num_logic_blocks" d.logicBlockCount
    seed := ← field s (fun v ↦ (wide? v).map .ofNat) 6 "seed" d.seed }

/-- The settings of the section `placement`. -/
def annealing? (s : Section) : Option (AnnealingSettings Float) := do
  let d := AnnealingSettings.default
  return {
    moves := ← field s wide? 0 "moves" d.moves
    initialTemperature := ← field s real? 1 "initial_temperature" d.initialTemperature
    coolingRate := ← field s real? 2 "cooling_rate" d.coolingRate
    movesPerTemperature := ← field s wide? 3 "moves_per_temperature" d.movesPerTemperature
    routerMoveFraction := ← field s real? 4 "router_move_fraction" d.routerMoveFraction
    auditInterval := ← field s wide? 5 "audit_interval" d.auditInterval
    errorTolerance := ← field s real? 6 "error_tolerance" d.errorTolerance
    reportFile := ← field s (fun v ↦ (text? v).map some) 7 "report_file" d.reportFile }

/-- A section of a document, read with a decoder. -/
def inSection {β : Type} (e : Entries) (key : String) (decode : Section → Option β) : Option β :=
  match e.lookup key with
  | some value => (toSection? value).bind decode
  | none => decode fun _ _ ↦ none

/-- The settings of a document. -/
def ofEntries? (e : Entries) : Option (Settings Float) := do
  return {
    routing := ← inSection e "noc" routing?
    mesh := ← inSection e "topology" mesh?
    traffic := ← inSection e "traffic" traffic?
    annealing := ← inSection e "placement" annealing? }

/-- The settings that a text describes, unless it is not a document or a setting is not as it should
be. -/
def ofText? (s : String) : Option (Settings Float) :=
  (Reader.document s).bind ofEntries?

end Settings

end NetOnChip
