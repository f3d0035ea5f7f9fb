import NetOnChip.Decimal.Text
import NetOnChip.Failure

/-!
# The wording of errors
-/

namespace NetOnChip

/-- The word for a direction. -/
def Direction.word : Direction → String
  | .left => "Left"
  | .right => "Right"
  | .up => "Up"
  | .down => "Down"

/-- The wording of an obstacle. -/
def Obstacle.message : Obstacle → String
  | .unreachable => "sink router is unreachable"
  | .noLinkHeading router direction => s!"router {router} has no link heading {direction.word}"
  | .revisits router => s!"route revisits router {router}"

/-- The wording of a flaw. -/
def Flaw.message : Flaw → String
  | .wrongCount routes flows => s!"{routes} routes stored for {flows} traffic flows"
  | .noSuchLink link => s!"link {link} does not exist"
  | .emptyBetween source sink => s!"empty route between distinct routers {source} and {sink}"
  | .startsAt actual expected => s!"starts at router {actual} instead of {expected}"
  | .broken link previous => s!"link {link} does not continue from link {previous}"
  | .endsAt actual expected => s!"ends at router {actual} instead of {expected}"

/-- The words for a cost term. -/
def CostTerm.words : CostTerm → String
  | .aggregateBandwidth => "aggregate bandwidth"
  | .latency => "latency"

/-- The wording of an error about doubles. -/
def Error.message : Error Float → String
  | .routingFailed algorithm source sink obstacle =>
    let rule := algorithm.name
    let reason := obstacle.message
    s!"{rule}: no route from router {source} to router {sink}: {reason}"
  | .unplacedBlock block => s!"cluster block {block} has not been placed"
  | .noRouterAt block tile =>
    s!"router block {block} is placed at {tile}, which holds no NoC router"
  | .unknownAlgorithm name => s!"unknown NoC routing algorithm '{name}'"
  | .occupiedTile tile => s!"a NoC router already exists at {tile}"
  | .costDrift term tracked recomputed tolerance =>
    let words := term.words
    let was := Decimal.scientific tracked
    let now := Decimal.scientific recomputed
    let allowed := Decimal.render .shortPositional tolerance
    s!"NoC {words} cost drifted: tracked {was}, recomputed {now} (tolerance {allowed})"
  | .usageMismatch link tracked expected =>
    let used := Decimal.scientific tracked
    let demand := Decimal.scientific expected
    s!"link {link} bandwidth usage is {used} but its routed flows demand {demand}"
  | .invalidRoute flow flaw =>
    let reason := flaw.message
    s!"traffic flow {flow} has an invalid route: {reason}"
  | .notInitialized =>
    "NoC traffic flows have not been routed yet; call initial_noc_placement first"
  | .alreadyInitialized => "NoC traffic flows were already routed by initial_noc_placement"

end NetOnChip
