import NetOnChip.Network
import NetOnChip.Proofs.Topology.Built
import NetOnChip.Scalar.Exact

/-!
# Walks

A route is a *walk* from one router to another when it follows the links: each link leaves the
router that the link before it leads to. Checks and costs follow a walk from its start, and searches
extend one at its end. A small network with more than one way serves as an example
(`Diamond.topology`).
-/

namespace NetOnChip

namespace Topology

variable {α : Type} {t : Topology α}

/-- A route that leads from one router to another. -/
inductive Walk (t : Topology α) : RouterId → Route → RouterId → Prop where
  /-- No link has to be taken in order to stay. -/
  | nil (r : RouterId) : Walk t r [] r
  /-- A link, and then a walk from where it leads. -/
  | cons {l : LinkId} {link : Link α} {route : Route} {sink : RouterId} :
      t.links[l.index]? = some link → Walk t link.sink route sink →
        Walk t link.source (l :: route) sink

theorem walk_nil_iff {source sink : RouterId} : t.Walk source [] sink ↔ source = sink := by
  constructor
  · rintro ⟨⟩
    rfl
  · rintro rfl
    exact .nil source

theorem walk_cons_iff {source sink : RouterId} {l : LinkId} {route : Route} :
    t.Walk source (l :: route) sink ↔
      ∃ link, t.link l = .ok link ∧ link.source = source ∧ t.Walk link.sink route sink := by
  constructor
  · intro h
    cases h with
    | @cons _ link _ _ hl hroute => exact ⟨link, Attempt.entry_eq_ok_iff.2 hl, rfl, hroute⟩
  · rintro ⟨link, hl, rfl, hroute⟩
    exact .cons (Attempt.entry_eq_ok_iff.1 hl) hroute

namespace Walk

/-- A walk may be extended by a link that leaves its last router. -/
theorem concat {source here : RouterId} {route : Route} {l : LinkId} {link : Link α}
    (h : t.Walk source route here) (hl : t.links[l.index]? = some link)
    (hlink : link.source = here) : t.Walk source (route ++ [l]) link.sink := by
  induction h with
  | nil r =>
    subst hlink
    exact .cons hl (.nil _)
  | cons hfirst _ ih => exact .cons hfirst (ih hlink)

/-- A walk to an existing router starts at one. -/
theorem source_lt (hw : t.WellFormed) {source sink : RouterId} {route : Route}
    (h : t.Walk source route sink) (hsink : sink.index < t.routers.size) :
    source.index < t.routers.size := by
  cases h with
  | nil _ => exact hsink
  | cons hl _ => exact hw.source_lt _ (Array.mem_of_getElem? hl)

/-- **A walk to an existing router** passes existing routers only, even if there are links that lead
nowhere: where a link ends, the walk ends as well or another link starts. -/
theorem sink_lt (hw : t.WellFormed) {source sink : RouterId} {route : Route}
    (h : t.Walk source route sink) (hsink : sink.index < t.routers.size) :
    ∀ l ∈ route, ∀ {link}, t.links[l.index]? = some link → link.sink.index < t.routers.size := by
  induction h with
  | nil _ => exact List.forall_mem_nil _
  | cons hl hroute ih =>
    intro k hk link hlink
    rcases List.mem_cons.1 hk with rfl | hk
    · obtain rfl := Option.some.inj (hl.symm.trans hlink)
      exact hroute.source_lt hw hsink
    · exact ih hsink k hk hlink

/-- The links of a walk exist. -/
theorem lt_links {source sink : RouterId} {route : Route} (h : t.Walk source route sink) :
    ∀ l ∈ route, l.index < t.links.size := by
  induction h with
  | nil r => simp
  | cons hl _ ih =>
    intro k hk
    rcases List.mem_cons.1 hk with rfl | hk
    · exact (Array.getElem?_eq_some_iff.1 hl).1
    · exact ih k hk

end Walk

end Topology

/-! ### A diamond -/

namespace Diamond

/-- Two ways lead to the router across, with a slow and a fast link to start one of them. Router 0
has a link to itself as well, which takes no time. -/
def topology : Topology Exact where
  routers := #[⟨0, ⟨0, 0, 0⟩, .number 1⟩, ⟨1, ⟨1, 0, 0⟩, .number 1⟩, ⟨2, ⟨0, 1, 0⟩, .number 1⟩,
    ⟨3, ⟨1, 1, 0⟩, .number 1⟩]
  links := #[⟨⟨0⟩, ⟨0⟩, .number 8, .number 0⟩, ⟨⟨0⟩, ⟨2⟩, .number 8, .number 1⟩,
    ⟨⟨0⟩, ⟨1⟩, .number 8, .number 3⟩, ⟨⟨0⟩, ⟨1⟩, .number 8, .number 1⟩,
    ⟨⟨1⟩, ⟨3⟩, .number 8, .number 1⟩, ⟨⟨2⟩, ⟨3⟩, .number 8, .number 4⟩]
  departures := #[[⟨0⟩, ⟨1⟩, ⟨2⟩, ⟨3⟩], [⟨4⟩], [⟨5⟩], []]

theorem built_topology : topology.Built := by
  have h₁ := Topology.Built.addRouter .empty (Topology.addRouter_of_free 0 (Exact.number 1)
    (by decide +kernel : Topology.routerAt? _ ⟨0, 0, 0⟩ = none))
  have h₂ := h₁.addRouter (Topology.addRouter_of_free 1 (Exact.number 1)
    (by decide +kernel : Topology.routerAt? _ ⟨1, 0, 0⟩ = none))
  have h₃ := h₂.addRouter (Topology.addRouter_of_free 2 (Exact.number 1)
    (by decide +kernel : Topology.routerAt? _ ⟨0, 1, 0⟩ = none))
  have h₄ := h₃.addRouter (Topology.addRouter_of_free 3 (Exact.number 1)
    (by decide +kernel : Topology.routerAt? _ ⟨1, 1, 0⟩ = none))
  have h₅ := h₄.addLink
    (show Topology.addLink _ ⟨0⟩ ⟨0⟩ (.number 8) (.number 0) = .ok (⟨0⟩, _) from rfl)
  have h₆ := h₅.addLink
    (show Topology.addLink _ ⟨0⟩ ⟨2⟩ (.number 8) (.number 1) = .ok (⟨1⟩, _) from rfl)
  have h₇ := h₆.addLink
    (show Topology.addLink _ ⟨0⟩ ⟨1⟩ (.number 8) (.number 3) = .ok (⟨2⟩, _) from rfl)
  have h₈ := h₇.addLink
    (show Topology.addLink _ ⟨0⟩ ⟨1⟩ (.number 8) (.number 1) = .ok (⟨3⟩, _) from rfl)
  have h₉ := h₈.addLink
    (show Topology.addLink _ ⟨1⟩ ⟨3⟩ (.number 8) (.number 1) = .ok (⟨4⟩, _) from rfl)
  exact h₉.addLink
    (show Topology.addLink _ ⟨2⟩ ⟨3⟩ (.number 8) (.number 4) = .ok (⟨5⟩, _) from rfl)

theorem closed_topology : topology.Closed := by
  unfold Topology.Closed
  decide

end Diamond

end NetOnChip
