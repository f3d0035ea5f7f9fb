import NetOnChip.Failure

/-!
# Topologies

A topology is a set of routers on distinct tiles together with directed links between them. It is
built by adding routers and links one at a time; identifiers are handed out in order.

A link may lead to a router that does not exist, or does not exist yet; only its source is looked
up when it is added. `Topology.Closed` says that all links lead to existing routers.

The links that leave a router are kept in the order in which they were added. Routing relies on
that order wherever two routes are equally good.

The numbers of routers and links are not bounded here. A program keeps them in words, and it finds
the router on a tile in a dictionary; `NetOnChip.Storage` does so as well, and what it stores is a
topology as long as all numbers are words.
-/

namespace NetOnChip

/-- A router of the network. -/
structure Router (α : Type) where
  /-- A number that the user knows the router by; it need not be unique. -/
  userId : Int32
  /-- The tile that the router stands on. -/
  tile : Tile
  /-- The time that it takes to pass the router. -/
  latency : α
  deriving Repr

/-- A directed link between two routers. -/
structure Link (α : Type) where
  /-- The router that the link leaves. -/
  source : RouterId
  /-- The router that the link leads to. -/
  sink : RouterId
  /-- The bandwidth that the link can carry. -/
  bandwidth : α
  /-- The time that it takes to pass the link. -/
  latency : α
  deriving Repr

/-- Routers, and the links between them. -/
structure Topology (α : Type) where
  /-- The routers in the order in which they were added. -/
  routers : Array (Router α)
  /-- The links in the order in which they were added. -/
  links : Array (Link α)
  /-- For every router the links that leave it, in the order in which they were added. -/
  departures : Array (List LinkId)
  deriving Repr

namespace Topology

variable {α : Type} (t : Topology α)

/-- No routers and no links. -/
def empty : Topology α :=
  ⟨#[], #[], #[]⟩

/-! ### Looking up -/

/-- The router with a given identifier. -/
def router (r : RouterId) : Attempt α (Router α) :=
  Attempt.entry t.routers r

/-- The link with a given identifier. -/
def link (l : LinkId) : Attempt α (Link α) :=
  Attempt.entry t.links l

/-- The links that leave a router. -/
def outgoing (r : RouterId) : Attempt α (List LinkId) :=
  Attempt.entry t.departures r

/-- The router on a tile. -/
def routerAt? (tile : Tile) : Option RouterId :=
  (t.routers.findIdx? fun r ↦ r.tile = tile).map .mk

/-- The link that was added first among those from one router to another. -/
def linkBetween? (source sink : RouterId) : Attempt α (Option LinkId) := do
  let candidates ← t.outgoing source
  return candidates.find? fun l ↦
    match t.links[l.index]? with
    | some link => link.sink = sink
    | none => false

/-- Every link leads to an existing router. -/
def Closed : Prop :=
  ∀ link ∈ t.links, link.sink.index < t.routers.size

/-! ### Building -/

/-- Adds a router on a tile that has none. -/
def addRouter (userId : Int32) (tile : Tile) (latency : α) : Attempt α (RouterId × Topology α) :=
  match t.routerAt? tile with
  | some _ => Attempt.fail (.occupiedTile tile)
  | none =>
    .ok (⟨t.routers.size⟩,
      { t with
        routers := t.routers.push ⟨userId, tile, latency⟩
        departures := t.departures.push [] })

/-- Adds a link that leaves an existing router. -/
def addLink (source sink : RouterId) (bandwidth latency : α) :
    Attempt α (LinkId × Topology α) := do
  let before ← t.outgoing source
  let l : LinkId := ⟨t.links.size⟩
  return (l,
    { t with
      links := t.links.push ⟨source, sink, bandwidth, latency⟩
      departures := t.departures.setIfInBounds source.index (before ++ [l]) })

/-- Adds a link from one router to another and then one back. -/
def addLinkPair (a b : RouterId) (bandwidth latency : α) :
    Attempt α ((LinkId × LinkId) × Topology α) := do
  let (there, t) ← t.addLink a b bandwidth latency
  let (back, t) ← t.addLink b a bandwidth latency
  return ((there, back), t)

end Topology

/-! ### Additions -/

/-- Something that is added to routers and links. -/
inductive Addition (α : Type) where
  /-- A router. -/
  | router (userId : Int32) (tile : Tile) (latency : α)
  /-- A link. -/
  | link (source sink : RouterId) (bandwidth latency : α)
  /-- A link from one router to another, and one back. -/
  | linkPair (a b : RouterId) (bandwidth latency : α)
  deriving Repr

/-- The topology after an addition. -/
def Topology.add {α : Type} (t : Topology α) : Addition α → Attempt α (Topology α)
  | .router userId tile latency => do
    let (_, t) ← t.addRouter userId tile latency
    return t
  | .link source sink bandwidth latency => do
    let (_, t) ← t.addLink source sink bandwidth latency
    return t
  | .linkPair a b bandwidth latency => do
    let (_, t) ← t.addLinkPair a b bandwidth latency
    return t

end NetOnChip
