import NetOnChip.Dictionary
import NetOnChip.Network
import NetOnChip.Outcome
import NetOnChip.Topology.Mesh

/-!
# Storages

A storage keeps the routers and links of a network while it is put together, and answers questions
about them. To the tables of a network it adds two dictionaries: one for the router on a tile, and
one for the router that a user number stands for. Both are written when a router is added, apart
from the table of routers, so that they agree with it is a matter of what is written when.

Identifiers are words here. A router or a link gets the number that it has in its table, but only
the low 32 bits of it.

A router that is added to an occupied tile is refused, and the storage stays as it is. A link from a
router that does not exist is not: the program stops with a fault, but by then the link is in the
table.
-/

namespace NetOnChip

/-- A network with the look-ups of its routers. -/
structure Storage (α : Type) extends Network α where
  /-- The router on a tile. -/
  byTile : Dictionary Tile RouterId
  /-- The router that a user number stands for. -/
  byUserId : Dictionary Int32 RouterId
  deriving Repr

namespace Storage

variable {α : Type}

/-- No routers and no links. -/
def empty : Storage α where
  topology := .empty
  usage := #[]
  byTile := .empty
  byUserId := .empty

variable (n : Storage α)

/-- The router on a tile. -/
def routerAt? (tile : Tile) : Option RouterId :=
  n.byTile.get? tile

/-- The router that a user number stands for. -/
def routerWithUserId? (userId : Int32) : Option RouterId :=
  n.byUserId.get? userId

/-! ### Adding -/

/-- Adds a router on a tile that has none. -/
def addRouter (userId : Int32) (tile : Tile) (latency : α) : Outcome (Storage α) α RouterId :=
  if n.byTile.contains tile then
    ⟨n, Attempt.fail (.occupiedTile tile)⟩
  else
    let r : RouterId := .ofNat n.topology.routers.size
    let t := { n.topology with
      routers := n.topology.routers.push ⟨userId, tile, latency⟩
      departures := n.topology.departures.push [] }
    ⟨{ n with
        topology := t
        byTile := n.byTile.insert tile r
        byUserId := n.byUserId.insert userId r },
      .ok r⟩

variable [Scalar α]

/-- Adds an unused link that leaves an existing router. -/
def addLink (source sink : RouterId) (bandwidth latency : α) : Outcome (Storage α) α LinkId :=
  let l : LinkId := .ofNat n.topology.links.size
  let t := { n.topology with links := n.topology.links.push ⟨source, sink, bandwidth, latency⟩ }
  let usage := n.usage.push 0
  match t.outgoing source with
  | .error e => ⟨{ n with topology := t, usage }, .error e⟩
  | .ok before =>
    let departures := t.departures.setIfInBounds source.index (before ++ [l])
    ⟨{ n with topology := { t with departures }, usage }, .ok l⟩

/-- Adds an unused link from one router to another and then one back. -/
def addLinkPair (a b : RouterId) (bandwidth latency : α) :
    Outcome (Storage α) α (LinkId × LinkId) :=
  (n.addLink a b bandwidth latency).andThen fun there n ↦
    (n.addLink b a bandwidth latency).andThen fun back n ↦ ⟨n, .ok (there, back)⟩

/-- The storage after an addition, which may have failed. -/
def extend : Addition α → Outcome (Storage α) α Unit
  | .router userId tile latency => (n.addRouter userId tile latency).forget
  | .link source sink bandwidth latency => (n.addLink source sink bandwidth latency).forget
  | .linkPair a b bandwidth latency => (n.addLinkPair a b bandwidth latency).forget

/-- The storage after additions in a row, some of which may have failed. -/
def extendAll (additions : List (Addition α)) : Storage α :=
  additions.foldl (fun n a ↦ (n.extend a).state) n

/-- The storage after additions in a row, up to the first one that fails. -/
def addAll : List (Addition α) → Storage α → Outcome (Storage α) α Unit
  | [], n => ⟨n, .ok ()⟩
  | a :: additions, n => (n.extend a).andThen fun _ n ↦ addAll additions n

end Storage

/-- The mesh that the settings describe, in a storage. -/
def MeshSettings.store {α : Type} [Scalar α] (s : MeshSettings α) : Attempt α (Storage α) :=
  if s.Fits then
    let o := Storage.addAll s.additions .empty
    o.result.map fun _ ↦ o.state
  else
    Attempt.crash .overflow

end NetOnChip
