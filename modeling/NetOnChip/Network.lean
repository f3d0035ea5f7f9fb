import NetOnChip.Topology

/-!
# Networks

A network is a topology together with the *usage* of its links: for every link the sum of the
bandwidths that are charged to it. Routing looks at the topology alone, so it cannot depend on
usage.
-/

namespace NetOnChip

/-- The links that a flow takes, in order from its source to its sink. -/
abbrev Route := List LinkId

namespace Link

variable {α : Type} [Scalar α]

/-- A link is congested when more bandwidth is charged to it than it can carry. -/
def isCongested (link : Link α) (usage : α) : Bool :=
  link.bandwidth < usage

/-- The share of a link that is in use; zero where the link carries nothing. -/
def utilization (link : Link α) (usage : α) : α :=
  if 0 < link.bandwidth then usage / link.bandwidth else 0

end Link

/-- A topology with the usage of its links. -/
structure Network (α : Type) where
  /-- The routers and links. -/
  topology : Topology α
  /-- The bandwidth charged to every link. -/
  usage : Array α
  deriving Repr

/-- Whether a route is added to its links or taken off them. -/
inductive Charge where
  /-- The links carry the flow from now on. -/
  | add
  /-- The links no longer carry the flow. -/
  | remove
  deriving DecidableEq, Repr

namespace Network

variable {α : Type} [Scalar α] (n : Network α)

/-- A topology with unused links. -/
def ofTopology (t : Topology α) : Network α :=
  ⟨t, Array.replicate t.links.size 0⟩

/-- The bandwidth charged to a link. -/
def usageOf (l : LinkId) : Attempt α α :=
  Attempt.entry n.usage l

/-- Sets the usage of one link. -/
def setUsage (l : LinkId) (u : α) : Attempt α (Network α) := do
  let _ ← n.usageOf l
  return { n with usage := n.usage.setIfInBounds l.index u }

/-- No link is used. -/
def resetUsage : Network α :=
  { n with usage := n.usage.map fun _ ↦ 0 }

/-- The links in order, each with its usage. -/
def loads : List (Link α × α) :=
  n.topology.links.toList.zip n.usage.toList

/-- The number of congested links. -/
def congestedCount : Nat :=
  n.loads.countP fun (link, u) ↦ link.isCongested u

/-- Charges a bandwidth to every link of a route in turn, or takes it off again. A link that the
route takes twice is charged twice. -/
def charge (how : Charge) (bandwidth : α) : Route → Network α → Attempt α (Network α)
  | [], n => .ok n
  | l :: route, n => do
    let u ← n.usageOf l
    let signed := match how with
      | .add => bandwidth
      | .remove => -bandwidth
    let n ← n.setUsage l (u + signed)
    charge how bandwidth route n

end Network

end NetOnChip
