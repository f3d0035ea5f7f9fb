import NetOnChip.Event
import NetOnChip.Failure.Message

/-!
# The wording of events
-/

namespace NetOnChip

/-- The word for a level. -/
def Level.word : Level → String
  | .error => "ERROR"
  | .warning => "WARN"
  | .info => "INFO"
  | .debug => "DEBUG"

/-- A text between the codes that colour it on a terminal. -/
def coloured (code : Nat) (text : String) : String :=
  s!"\x1b[{code}m" ++ text ++ "\x1b[0m"

/-- A path between quotation marks, where what a terminal would not show is escaped. -/
def quoted (path : String) : String :=
  let escape (c : Char) : String :=
    if c = '"' then "\\\""
    else if c = '\\' then "\\\\"
    else if c = '\n' then "\\n"
    else if c = '\r' then "\\r"
    else if c = '\t' then "\\t"
    else c.toString
  "\"" ++ String.join (path.toList.map escape) ++ "\""

namespace Event

/-- The wording of an event about doubles. -/
def text : Event Float → String
  | builtMesh width height routers links =>
    s!"Built {width}x{height} mesh NoC: {routers} routers, {links} links"
  | noFreeTiles width height =>
    s!"{width}x{height} grid has no tiles free of routers. Skipping logic blocks."
  | tooFewRouters => "Mesh has fewer than two routers. No traffic flows generated."
  | generated routerBlocks logicBlocks flows =>
    s!"Generated NoC benchmark: {routerBlocks} router blocks, {logicBlocks} logic blocks, " ++
      s!"{flows} traffic flows"
  | selected algorithm => "Using NoC routing algorithm '" ++ algorithm.name ++ "'"
  | routed flows algorithm terms =>
    let rule := algorithm.name
    let bandwidth := Decimal.scientific terms.aggregateBandwidth
    let latency := Decimal.scientific terms.latency
    s!"Routed {flows} traffic flows with {rule}: aggregate bandwidth cost {bandwidth}, " ++
      s!"latency cost {latency}"
  | normalized aggregateBandwidthFactor latencyFactor =>
    let bandwidth := Decimal.scientific aggregateBandwidthFactor
    let latency := Decimal.scientific latencyFactor
    s!"NoC normalization factors: aggregate bandwidth {bandwidth}, latency {latency}"
  | auditFailed cause => coloured 31 "FAIL" ++ ": " ++ cause.message
  | auditPassed flows links =>
    coloured 32 "PASS" ++ s!": NoC costs match recomputation ({flows} flows, {links} links)"
  | initialCosts costs =>
    let bandwidth := Decimal.scientific costs.aggregateBandwidth
    let bandwidthFactor := Decimal.scientific costs.aggregateBandwidthFactor
    let latency := Decimal.scientific costs.latency
    let latencyFactor := Decimal.scientific costs.latencyFactor
    s!"NoC costs: aggregate bandwidth {bandwidth} (norm {bandwidthFactor}), " ++
      s!"latency {latency} (norm {latencyFactor})"
  | started moves cost =>
    let total := Decimal.render (.fixed 4) cost
    s!"Starting NoC placement: {moves} moves, initial cost {total}"
  | rerouted delta =>
    let flows := delta.rerouted
    let bandwidth := Decimal.render .signedScientific delta.aggregateBandwidth
    let latency := Decimal.render .signedScientific delta.latency
    s!"Move re-routed {flows} traffic flows: aggregate bandwidth {bandwidth}, latency {latency}"
  | cooled move temperature cost =>
    let degree := Decimal.render (.fixedScientific 3) temperature
    let total := Decimal.render (.fixed 4) cost
    s!"Move {move}: T = {degree}, cost = {total}"
  | nothingToMove => "Nothing to move. Stopping placement."
  | finished accepted rejected before after =>
    let first := Decimal.render (.fixed 4) before
    let last := Decimal.render (.fixed 4) after
    s!"NoC placement done: {accepted} accepted, {rejected} rejected, cost {first} -> {last}"
  | finalCosts costs =>
    let bandwidth := Decimal.scientific costs.aggregateBandwidth
    let latency := Decimal.scientific costs.latency
    s!"NoC costs: aggregate bandwidth {bandwidth}, latency {latency}"
  | creatingDirectory path => "Creating output directory: " ++ quoted path
  | writingReport path => "Writing NoC report to " ++ path
  | linkUsage peak congested links =>
    let percent := Decimal.render (.fixed 1) (peak * 100.0)
    s!"Link usage: peak utilization {percent}%, {congested} of {links} links congested"
  | congestedLink link source sink usage bandwidth =>
    let used := Decimal.scientific usage
    let capacity := Decimal.scientific bandwidth
    s!"Link {link} ({source} -> {sink}) is congested: {used} of {capacity}"

/-- The line that an event is logged with. -/
def line (e : Event Float) : String :=
  e.level.word ++ " " ++ e.text

end Event

end NetOnChip
