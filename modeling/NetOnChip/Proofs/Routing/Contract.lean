import Mathlib.Logic.Relation
import NetOnChip.Proofs.Route.Restore
import NetOnChip.Proofs.Routing.DimensionOrder
import NetOnChip.Proofs.Routing.FewestHops
import NetOnChip.Proofs.Routing.Queue
import NetOnChip.Proofs.Tracker.Start
import NetOnChip.Routing

/-!
# What all routing algorithms promise

The three algorithms search in different ways, but they promise the same (`route_contract`): a path,
or the error that there is no route. Each of them rests on marks that keep a search from coming to a
router for the second time. Nothing is assumed of the latencies, which need not even be ordered, and
nothing of the tiles. Only where a queue takes the place of the list of candidates have latencies to
be ordered in some total way, as doubles are by their bits.

What is charged to the links is no part of a topology, and no change of it is one of the topology
(`Network.Recharged.topology_eq`). So a route may be looked for at any time between charges.

That no route is found although there is one is not excluded here. Dimension-ordered routing may
well turn into a dead end, and a router that is infinitely far has no least latency.
-/

namespace NetOnChip

variable {α : Type} [Scalar α] {t : Topology α} {source sink : RouterId}

namespace Network

/-- A change of what the links carry. -/
inductive Recharged : Network α → Network α → Prop where
  /-- The usage of a link was set. -/
  | set {n n' : Network α} {l : LinkId} {u : α} : n.setUsage l u = .ok n' → Recharged n n'
  /-- All links were emptied. -/
  | reset (n : Network α) : Recharged n n.resetUsage
  /-- A route was charged, or taken off its links again. -/
  | charge {n n' : Network α} {how : Charge} {bandwidth : α} {route : Route} :
      n.charge how bandwidth route = .ok n' → Recharged n n'

theorem Recharged.topology_eq {n n' : Network α} (h : Recharged n n') :
    n'.topology = n.topology := by
  cases h with
  | set h =>
    obtain ⟨_, -, h⟩ := Attempt.bind_eq_ok_iff.1 h
    rw [← Except.ok.inj h]
  | reset => rfl
  | charge h => exact (charge_frame h).1

/-- **Any number of changes** leaves the routers and links as they are. -/
theorem topology_of_recharged {n n' : Network α} (h : Relation.ReflTransGen Recharged n n') :
    n'.topology = n.topology := by
  induction h with
  | refl => rfl
  | tail _ hlast ih => exact hlast.topology_eq.trans ih

end Network

namespace Algorithm

/-- The route that an algorithm finds within a number of steps. -/
def routeWithin (a : Algorithm) (fuel : Nat) (t : Topology α) (source sink : RouterId) :
    Attempt α Route :=
  match a with
  | .fewestHops => FewestHops.routeWithin fuel t source sink
  | .dimensionOrder => DimensionOrder.routeWithin fuel t source sink
  | .leastLatency => LeastLatency.routeWithin fuel t source sink

/-- The route that an algorithm finds with parent links, which are walked back from the sink. It is
missing if one of them is. Dimension-ordered routing collects its links as it goes. -/
def routeLinked (a : Algorithm) (t : Topology α) (source sink : RouterId) :
    Attempt α (Option Route) :=
  match a with
  | .fewestHops => FewestHops.routeLinked t source sink
  | .dimensionOrder => (DimensionOrder.route t source sink).map some
  | .leastLatency => LeastLatency.routeLinked t source sink

/-- **Every algorithm** ends with a path from the source to the sink, or there is no route; and with
parent links it ends with the same. -/
theorem route_cases (a : Algorithm) (hw : t.WellFormed) (hc : t.Closed)
    (hsource : source.index < t.routers.size) (hsink : sink.index < t.routers.size) :
    (∃ found, t.Path source found sink ∧ a.route t source sink = .ok found ∧
      a.routeLinked t source sink = .ok (some found)) ∨
    ∃ why, a.route t source sink = .error (.error (.routingFailed a source sink why)) ∧
      a.routeLinked t source sink = .error (.error (.routingFailed a source sink why)) := by
  cases a with
  | fewestHops => exact FewestHops.route_cases hw hc hsource sink
  | leastLatency => exact LeastLatency.route_cases hw hc hsource sink
  | dimensionOrder =>
    rcases (DimensionOrder.routeWithin_cases hw hc hsource hsink (Nat.le_refl _)).2
      with ⟨found, hpath, heq⟩ | ⟨why, heq⟩
    · refine .inl ⟨found, hpath, heq, ?_⟩
      show (DimensionOrder.route t source sink).map some = _
      rw [heq]
      rfl
    · refine .inr ⟨why, heq, ?_⟩
      show (DimensionOrder.route t source sink).map some = _
      rw [heq]
      rfl

theorem routeWithin_eq (a : Algorithm) (hw : t.WellFormed) (hc : t.Closed)
    (hsource : source.index < t.routers.size) (hsink : sink.index < t.routers.size) {fuel : Nat}
    (hfuel : t.routers.size ≤ fuel) :
    a.routeWithin fuel t source sink = a.route t source sink := by
  cases a with
  | fewestHops => exact FewestHops.routeWithin_eq hw hc hsource hfuel
  | leastLatency => exact LeastLatency.routeWithin_eq hw hc hsource hfuel
  | dimensionOrder => exact (DimensionOrder.routeWithin_cases hw hc hsource hsink hfuel).1

/-- **The contract of the routing algorithms**, between any two routers.

* There is a route or the error that there is none, and it is an error if no walk leads to the sink.
* A route is empty exactly if both ends are the same router. It follows the links from the source to
  the sink, it visits no router twice, and so it takes fewer links than there are routers.
* As many steps as there are routers are enough: more of them make no difference.
* Parent links would lead back over the same route, and none of them would be missing. This holds of
  the search by latency with any queue that can be relied on.
* The route stays the same whatever is charged to the links or taken off them. -/
theorem route_contract (a : Algorithm) (ht : t.Built) (hc : t.Closed)
    (hsource : source.index < t.routers.size) (hsink : sink.index < t.routers.size) :
    ((∃ route, a.route t source sink = .ok route ∧ (route = [] ↔ source = sink) ∧
        t.Walk source route sink ∧ (t.stops route sink).Nodup ∧
        route.length < t.routers.size) ∨
      ∃ why, a.route t source sink = .error (.error (.routingFailed a source sink why))) ∧
    ((∀ route, ¬ t.Walk source route sink) →
      ∃ why, a.route t source sink = .error (.error (.routingFailed a source sink why))) ∧
    (∀ fuel, t.routers.size ≤ fuel →
      a.routeWithin fuel t source sink = a.route t source sink) ∧
    (a.routeLinked t source sink = (a.route t source sink).map some ∧
      ∀ [Std.TransCmp (Scalar.order : α → α → Ordering)] (q : LeastLatency.Queue α), q.Lawful →
        a = .leastLatency →
          LeastLatency.routeQueued q t source sink = (a.route t source sink).map some) ∧
    ∀ n n' : Network α, n.topology = t → Relation.ReflTransGen Network.Recharged n n' →
      a.route n'.topology source sink = a.route t source sink := by
  have hlinked : a.routeLinked t source sink = (a.route t source sink).map some := by
    rcases a.route_cases ht.wellFormed hc hsource hsink with ⟨_, _, heq, heq'⟩ | ⟨_, heq, heq'⟩
    · rw [heq, heq']
      rfl
    · rw [heq, heq']
      rfl
  refine ⟨?_, fun hnone ↦ ?_, fun _ ↦ a.routeWithin_eq ht.wellFormed hc hsource hsink,
    ⟨hlinked, fun q hq hleast ↦ ?_⟩, ?_⟩
  · rcases a.route_cases ht.wellFormed hc hsource hsink with ⟨route, hpath, heq, -⟩ | ⟨why, heq, -⟩
    · exact .inl ⟨route, heq, hpath.eq_nil_iff, hpath.walk, hpath.nodup,
        hpath.length_lt ht.wellFormed hsink⟩
    · exact .inr ⟨why, heq⟩
  · rcases a.route_cases ht.wellFormed hc hsource hsink with ⟨route, hpath, -⟩ | ⟨why, heq, -⟩
    · exact absurd hpath.walk (hnone route)
    · exact ⟨why, heq⟩
  · subst hleast
    rw [LeastLatency.routeQueued_eq hq]
    exact hlinked
  · rintro n n' rfl hcharged
    rw [Network.topology_of_recharged hcharged]

/-- Two routers with a link from the first one to the second, in doubles. -/
def doubles : Topology Float where
  routers := #[⟨0, ⟨0, 0, 0⟩, 1⟩, ⟨1, ⟨1, 0, 0⟩, 1⟩]
  links := #[⟨⟨0⟩, ⟨1⟩, 8, 1⟩]
  departures := #[[⟨0⟩], []]

theorem built_doubles : doubles.Built := by
  have h₁ := Topology.Built.addRouter .empty (Topology.addRouter_of_free 0 (1 : Float)
    (by decide +kernel : Topology.routerAt? _ ⟨0, 0, 0⟩ = none))
  have h₂ := h₁.addRouter (Topology.addRouter_of_free 1 (1 : Float)
    (by decide +kernel : Topology.routerAt? _ ⟨1, 0, 0⟩ = none))
  exact h₂.addLink (show Topology.addLink _ ⟨0⟩ ⟨1⟩ 8 1 = .ok (⟨0⟩, _) from rfl)

theorem closed_doubles : doubles.Closed := by
  simp [Topology.Closed, doubles]

/-- In a row of three routers the search by latency finds the path over the router in the middle,
and the contract holds of it. In doubles any queue finds what a list of candidates does. -/
theorem route_contract_line :
    (leastLatency.route Line.topology ⟨0⟩ ⟨2⟩ = .ok [⟨0⟩, ⟨2⟩] ∧
      Line.topology.stops [⟨0⟩, ⟨2⟩] ⟨2⟩ = [⟨0⟩, ⟨1⟩, ⟨2⟩] ∧
      leastLatency.routeLinked Line.topology ⟨0⟩ ⟨2⟩ = .ok (some [⟨0⟩, ⟨2⟩]) ∧
      leastLatency.routeWithin 7 Line.topology ⟨0⟩ ⟨2⟩ = .ok [⟨0⟩, ⟨2⟩]) ∧
    (LeastLatency.Queue.ofList Float).Lawful ∧
      ∀ q : LeastLatency.Queue Float, q.Lawful →
        LeastLatency.routeQueued q doubles ⟨0⟩ ⟨1⟩ =
          (leastLatency.route doubles ⟨0⟩ ⟨1⟩).map some := by
  have hroute : leastLatency.route Line.topology ⟨0⟩ ⟨2⟩ = .ok [⟨0⟩, ⟨2⟩] := by
    decide +kernel
  have hfirst : (⟨0⟩ : RouterId).index < Line.topology.routers.size := by decide
  have hlast : (⟨2⟩ : RouterId).index < Line.topology.routers.size := by decide
  obtain ⟨-, -, hwithin, ⟨hlinked, -⟩, -⟩ :=
    leastLatency.route_contract Line.built_topology Line.closed_topology hfirst hlast
  have hsource : (⟨0⟩ : RouterId).index < doubles.routers.size := by decide
  have hsink : (⟨1⟩ : RouterId).index < doubles.routers.size := by decide
  obtain ⟨-, -, -, ⟨-, hqueued⟩, -⟩ :=
    leastLatency.route_contract built_doubles closed_doubles hsource hsink
  refine ⟨⟨hroute, rfl, ?_, ?_⟩, LeastLatency.Queue.lawful_ofList, fun q hq ↦ hqueued q hq rfl⟩
  · rw [hlinked, hroute]
    rfl
  · rw [hwithin 7 (by decide), hroute]

end Algorithm

end NetOnChip
