import Mathlib.Logic.Basic
import NetOnChip.Topology

/-!
# Topologies that were built

Topologies are built by adding routers and links (`Topology.Built`). Those that were built are
*well formed*: every link leaves an existing router, and the links that leave a router are listed in
ascending order, without gaps (`Built.wellFormed`). They need not be closed.
-/

namespace NetOnChip

namespace Topology

variable {α : Type} {t : Topology α}

/-- The topologies that can be built. -/
inductive Built : Topology α → Prop where
  /-- No routers and no links. -/
  | empty : Built .empty
  /-- A router was added. -/
  | addRouter {t t' : Topology α} {r : RouterId} {userId : Int32} {tile : Tile} {latency : α} :
      Built t → t.addRouter userId tile latency = .ok (r, t') → Built t'
  /-- A link was added. -/
  | addLink {t t' : Topology α} {l : LinkId} {source sink : RouterId} {bandwidth latency : α} :
      Built t → t.addLink source sink bandwidth latency = .ok (l, t') → Built t'
  /-- Two opposing links were added. -/
  | addLinkPair {t t' : Topology α} {pair : LinkId × LinkId} {a b : RouterId}
      {bandwidth latency : α} :
      Built t → t.addLinkPair a b bandwidth latency = .ok (pair, t') → Built t'

/-- Whether a link leaves a router. -/
def leaves (t : Topology α) (r : RouterId) (l : LinkId) : Bool :=
  t.links[l.index]?.any fun link ↦ link.source = r

/-- Links leave existing routers, and every router lists the links that leave it. -/
structure WellFormed (t : Topology α) : Prop where
  /-- There is one list of links for every router. -/
  size_departures : t.departures.size = t.routers.size
  /-- Every link leaves an existing router. -/
  source_lt : ∀ link ∈ t.links, link.source.index < t.routers.size
  /-- The links that leave a router are listed in order. -/
  outgoing_eq : ∀ r : RouterId, r.index < t.routers.size →
    t.outgoing r = .ok ((Id.range t.links.size).filter (t.leaves r))

theorem leaves_iff {r : RouterId} {l : LinkId} :
    t.leaves r l = true ↔ ∃ link, t.links[l.index]? = some link ∧ link.source = r := by
  simp [leaves, Option.any_eq_true]

/-- The links that are listed at a router leave it. -/
theorem leaves_of_listed (t : Topology α) (r : RouterId) :
    ∀ l ∈ (Id.range t.links.size).filter (t.leaves r), t.leaves r l = true :=
  fun _ hl ↦ (List.mem_filter.1 hl).2

/-! ### Adding routers and links -/

/-- A router can be added on a tile that has none. -/
theorem addRouter_of_free (userId : Int32) {tile : Tile} (latency : α)
    (h : t.routerAt? tile = none) :
    t.addRouter userId tile latency = .ok (⟨t.routers.size⟩,
      { t with
        routers := t.routers.push ⟨userId, tile, latency⟩
        departures := t.departures.push [] }) := by
  rw [addRouter, h]

theorem addRouter_eq_ok {t' : Topology α} {r : RouterId} {userId : Int32} {tile : Tile}
    {latency : α} (h : t.addRouter userId tile latency = .ok (r, t')) :
    t' = { t with
      routers := t.routers.push ⟨userId, tile, latency⟩
      departures := t.departures.push [] } := by
  unfold addRouter at h
  split at h
  · cases h
  · cases h
    rfl

theorem addLink_eq_ok {t' : Topology α} {l : LinkId} {source sink : RouterId}
    {bandwidth latency : α} (h : t.addLink source sink bandwidth latency = .ok (l, t')) :
    ∃ before, t.departures[source.index]? = some before ∧ l = ⟨t.links.size⟩ ∧
      t' = { t with
        links := t.links.push ⟨source, sink, bandwidth, latency⟩
        departures := t.departures.setIfInBounds source.index (before ++ [⟨t.links.size⟩]) } := by
  obtain ⟨before, hbefore, h⟩ := Attempt.bind_eq_ok_iff.1 h
  cases h
  exact ⟨before, Attempt.entry_eq_ok_iff.1 hbefore, rfl, rfl⟩

theorem addLinkPair_eq_ok {t' : Topology α} {pair : LinkId × LinkId} {a b : RouterId}
    {bandwidth latency : α} (h : t.addLinkPair a b bandwidth latency = .ok (pair, t')) :
    ∃ t₁, t.addLink a b bandwidth latency = .ok (pair.1, t₁) ∧
      t₁.addLink b a bandwidth latency = .ok (pair.2, t') := by
  obtain ⟨⟨there, t₁⟩, h₁, h⟩ := Attempt.bind_eq_ok_iff.1 h
  obtain ⟨⟨back, t₂⟩, h₂, h⟩ := Attempt.bind_eq_ok_iff.1 h
  cases h
  exact ⟨t₁, h₁, h₂⟩

/-! ### Well-formedness is kept -/

theorem wellFormed_empty : (empty : Topology α).WellFormed where
  size_departures := rfl
  source_lt := by simp [empty]
  outgoing_eq := by simp [empty]

theorem WellFormed.addRouter {t' : Topology α} {r : RouterId} {userId : Int32} {tile : Tile}
    {latency : α} (hw : t.WellFormed) (h : t.addRouter userId tile latency = .ok (r, t')) :
    t'.WellFormed := by
  obtain rfl := addRouter_eq_ok h
  constructor
  · simp [hw.size_departures]
  · intro link hlink
    rw [Array.size_push]
    exact Nat.lt_succ_of_lt (hw.source_lt link hlink)
  · intro q hq
    rw [Array.size_push] at hq
    refine Attempt.entry_eq_ok_iff.2 ?_
    rcases Nat.lt_succ_iff_lt_or_eq.1 hq with hlt | heq
    · have hold := Attempt.entry_eq_ok_iff.1 (hw.outgoing_eq q hlt)
      rw [Array.getElem?_push, if_neg (by rw [hw.size_departures]; omega)]
      exact hold
    · -- no link leaves the router that was just added
      rw [Array.getElem?_push, if_pos (heq.trans hw.size_departures.symm), Option.some.injEq,
        eq_comm, List.filter_eq_nil_iff]
      intro l _ hl
      obtain ⟨link, hlink, rfl⟩ := leaves_iff.1 hl
      exact absurd (hw.source_lt link (Array.mem_of_getElem? hlink)) (by omega)

/-- The links that leave a router after one more link was added. -/
theorem filter_leaves_push (link : Link α) (departures : Array (List LinkId)) (r : RouterId) :
    (Id.range (t.links.push link).size).filter
        (leaves { t with links := t.links.push link, departures } r) =
      (Id.range t.links.size).filter (t.leaves r) ++
        if link.source = r then [⟨t.links.size⟩] else [] := by
  have hbefore : ∀ l ∈ Id.range t.links.size,
      leaves { t with links := t.links.push link, departures } r l = t.leaves r l := by
    intro l hl
    rw [leaves, leaves, Array.getElem?_push, if_neg (Nat.ne_of_lt (Id.mem_range.1 hl))]
  have hlast : leaves { t with links := t.links.push link, departures } r ⟨t.links.size⟩ =
      decide (link.source = r) := by
    rw [leaves, Array.getElem?_push, if_pos rfl, Option.any_some]
  rw [Array.size_push, Id.range_succ, List.filter_append, List.filter_congr hbefore]
  by_cases h : link.source = r <;> simp [h, hlast]

theorem WellFormed.addLink {t' : Topology α} {l : LinkId} {source sink : RouterId}
    {bandwidth latency : α} (hw : t.WellFormed)
    (h : t.addLink source sink bandwidth latency = .ok (l, t')) : t'.WellFormed := by
  obtain ⟨before, hbefore, -, rfl⟩ := addLink_eq_ok h
  have hsource : source.index < t.routers.size :=
    hw.size_departures ▸ (Array.getElem?_eq_some_iff.1 hbefore).1
  constructor
  · simp [hw.size_departures]
  · intro link hlink
    rcases Array.mem_push.1 hlink with hlink | rfl
    · exact hw.source_lt link hlink
    · exact hsource
  · intro q hq
    have hold := Attempt.entry_eq_ok_iff.1 (hw.outgoing_eq q hq)
    refine Attempt.entry_eq_ok_iff.2 ?_
    rw [filter_leaves_push, Array.getElem?_setIfInBounds]
    rcases eq_or_ne source q with rfl | hne
    · rw [if_pos rfl, if_pos (Array.getElem?_eq_some_iff.1 hbefore).1, if_pos rfl]
      rw [hbefore, Option.some.injEq] at hold
      rw [hold]
    · rw [if_neg fun e ↦ hne (Id.ext e), if_neg hne, List.append_nil]
      exact hold

/-- **Topologies that were built are well formed.** -/
theorem Built.wellFormed (h : t.Built) : t.WellFormed := by
  induction h with
  | empty => exact wellFormed_empty
  | addRouter _ h ih => exact ih.addRouter h
  | addLink _ h ih => exact ih.addLink h
  | addLinkPair _ h ih =>
    obtain ⟨t₁, hthere, hback⟩ := addLinkPair_eq_ok h
    exact (ih.addLink hthere).addLink hback

/-- A link can be added that leaves an existing router. -/
theorem exists_addLink (hw : t.WellFormed) {source : RouterId}
    (hsource : source.index < t.routers.size) (sink : RouterId) (bandwidth latency : α) :
    ∃ t', t.addLink source sink bandwidth latency = .ok (⟨t.links.size⟩, t') ∧
      t'.routers = t.routers ∧ t'.links = t.links.push ⟨source, sink, bandwidth, latency⟩ := by
  rw [addLink, hw.outgoing_eq source hsource]
  exact ⟨_, rfl, rfl, rfl⟩

/-- Two opposing links can be added between existing routers. -/
theorem exists_addLinkPair (hw : t.WellFormed) {a b : RouterId} (ha : a.index < t.routers.size)
    (hb : b.index < t.routers.size) (bandwidth latency : α) :
    ∃ pair t', t.addLinkPair a b bandwidth latency = .ok (pair, t') ∧ t'.routers = t.routers ∧
      t'.links = (t.links.push ⟨a, b, bandwidth, latency⟩).push ⟨b, a, bandwidth, latency⟩ := by
  obtain ⟨t₁, h₁, hrouters₁, hlinks₁⟩ := exists_addLink hw ha b bandwidth latency
  obtain ⟨t₂, h₂, hrouters₂, hlinks₂⟩ :=
    exists_addLink (hw.addLink h₁) (hrouters₁.symm ▸ hb) a bandwidth latency
  refine ⟨(⟨t.links.size⟩, ⟨t₁.links.size⟩), t₂, ?_, hrouters₂.trans hrouters₁, hlinks₁ ▸ hlinks₂⟩
  rw [addLinkPair, h₁, Attempt.ok_bind]
  show (t₁.addLink b a bandwidth latency >>= _) = _
  rw [h₂]
  rfl

/-- There is no router on a tile exactly if none of the routers stands there. -/
theorem routerAt?_eq_none_iff {tile : Tile} :
    t.routerAt? tile = none ↔ ∀ r ∈ t.routers, r.tile ≠ tile := by
  rw [routerAt?, Option.map_eq_none_iff, Array.findIdx?_eq_none_iff]
  simp

theorem routerAt?_lt {tile : Tile} {r : RouterId} (h : t.routerAt? tile = some r) :
    r.index < t.routers.size := by
  obtain ⟨i, hi, rfl⟩ := Option.map_eq_some_iff.1 h
  exact (Array.findIdx?_eq_some_iff_findIdx_eq.1 hi).1

end Topology

end NetOnChip
