import NetOnChip.Proofs.Routing.LeastLatency
import NetOnChip.Proofs.Scalar.Number

/-!
# A search by latency that misses nothing

A router that is infinitely far, or in no order with the others, is never a candidate. If all
latencies are numbers this does not happen: whatever a link leads to from a settled router is
settled or waits (`Search.Covers`). So when nothing waits any more then the settled routers are
closed under links, and a search that did not come to its sink by then has none to come to
(`exists_route`). Latencies may be negative.
-/

namespace NetOnChip

namespace LeastLatency

variable {t : Topology Exact} {source sink : RouterId}

/-- A search has settled some routers and followed all links that leave them, except for some that
are still to be followed. -/
structure Search.Covers (t : Topology Exact) (source sink : RouterId) (left : List LinkId)
    (s : Search Exact) : Prop where
  /-- The source is settled or waits. -/
  source_mem : s.settled[source.index]? = some true ∨ source ∈ s.waiting.map (·.router)
  /-- The sink is not settled. -/
  sink_new : s.settled[sink.index]? ≠ some true
  /-- What a link leads to that was followed is settled or waits. -/
  followed : ∀ (l : LinkId) (link : Link Exact), t.links[l.index]? = some link →
    s.settled[link.source.index]? = some true → l ∈ left ∨
      s.settled[link.sink.index]? = some true ∨ link.sink ∈ s.waiting.map (·.router)
  /-- Every candidate has a latency. -/
  latency : ∀ c ∈ s.waiting, c.latency.isNumber

variable {left : List LinkId} {s : Search Exact}

/-- A candidate with a latency is waiting for its router afterwards, or a better one is. -/
theorem mem_map_router_offer {c : Candidate Exact} (hc : c.latency.isNumber)
    {waiting : List (Candidate Exact)} {r : RouterId} :
    r ∈ (offer c waiting).map (·.router) ↔ r = c.router ∨ r ∈ waiting.map (·.router) := by
  rw [offer_eq]
  split
  · exact mem_map_router_push
  · rename_i hbest
    refine (or_iff_right_of_imp ?_).symm
    rintro rfl
    -- a number is less than what is known for a router without a candidate
    by_contra hnone
    have hfind : waiting.find? (fun d ↦ d.router = c.router) = none :=
      List.find?_eq_none.2 fun d hd e ↦ hnone (List.mem_map.2 ⟨d, hd, by simpa using e⟩)
    obtain ⟨q, hq⟩ := Exact.isNumber_iff.1 hc
    rw [bestOf, hfind, hq] at hbest
    exact hbest rfl

theorem mem_of_mem_offer {c d : Candidate Exact} {waiting : List (Candidate Exact)}
    (hd : d ∈ offer c waiting) : d = c ∨ d ∈ waiting := by
  induction waiting with
  | nil =>
    rw [offer] at hd
    split at hd
    · exact .inl (List.mem_singleton.1 hd)
    · exact absurd hd List.not_mem_nil
  | cons e waiting ih =>
    rw [offer] at hd
    split at hd
    · split at hd
      · exact (List.mem_cons.1 hd).imp_right (List.mem_cons_of_mem e)
      · exact .inr hd
    · rcases List.mem_cons.1 hd with rfl | hd
      · exact .inr List.mem_cons_self
      · exact (ih hd).imp_right (List.mem_cons_of_mem e)

namespace Search.Covers

/-- **Every router on a walk is settled** when nothing waits any more. -/
theorem settled_of_walk (h : s.Covers t source sink []) (hnil : s.waiting = []) {here : RouterId}
    {walk : Route} {there : RouterId} (hwalk : t.Walk here walk there)
    (hhere : s.settled[here.index]? = some true) : s.settled[there.index]? = some true := by
  induction hwalk with
  | nil => exact hhere
  | @cons l link _ _ hl _ ih =>
    rcases h.followed l link hl hhere with hleft | hsettled | hwaits
    · exact absurd hleft List.not_mem_nil
    · exact ih hsettled
    · simp [hnil] at hwaits

/-- So there is no walk to the sink then. -/
theorem waiting_ne_nil (h : s.Covers t source sink []) {walk : Route}
    (hwalk : t.Walk source walk sink) : s.waiting ≠ [] := by
  intro hnil
  refine h.sink_new (h.settled_of_walk hnil hwalk ?_)
  rcases h.source_mem with hsettled | hwaits
  · exact hsettled
  · simp [hnil] at hwaits

/-- A router is settled, and the links that leave it are to be followed. -/
theorem settle (h : s.Covers t source sink []) {here : Candidate Exact}
    {others : List (Candidate Exact)} (hnext : takeNext s.waiting = some (here, others))
    (hsink : here.router ≠ sink) (hlt : here.router.index < s.settled.size) :
    Search.Covers t source sink ((Id.range t.links.size).filter (t.leaves here.router))
      { settled := s.settled.setIfInBounds here.router.index true, waiting := others } := by
  have hperm := takeNext_perm hnext
  have hset : (s.settled.setIfInBounds here.router.index true)[here.router.index]? = some true :=
    Array.getElem?_setIfInBounds_self_of_lt hlt
  have hkept : ∀ {r : RouterId}, s.settled[r.index]? = some true ∨ r ∈ s.waiting.map (·.router) →
      (s.settled.setIfInBounds here.router.index true)[r.index]? = some true ∨
        r ∈ others.map (·.router) := by
    rintro r (hsettled | hwaits)
    · exact .inl (marked_setIfInBounds hsettled)
    · rcases List.mem_cons.1 ((hperm.map (·.router)).mem_iff.1 hwaits) with rfl | hothers
      · exact .inl hset
      · exact .inr hothers
  refine ⟨hkept h.source_mem, fun hsettled ↦ ?_, fun l link hl hsettled ↦ ?_, fun c hc ↦ ?_⟩
  · rw [Array.getElem?_setIfInBounds, if_neg fun e ↦ hsink (Id.ext e)] at hsettled
    exact h.sink_new hsettled
  · rcases eq_or_ne link.source here.router with heq | hne
    · refine .inl (List.mem_filter.2 ⟨Id.mem_range.2 ?_, Topology.leaves_iff.2 ⟨link, hl, heq⟩⟩)
      exact (Array.getElem?_eq_some_iff.1 hl).1
    · rw [Array.getElem?_setIfInBounds, if_neg fun e ↦ hne (Id.ext e.symm)] at hsettled
      rcases h.followed l link hl hsettled with hleft | hsink
      · exact absurd hleft List.not_mem_nil
      · exact .inr (hkept hsink)
  · exact h.latency c (hperm.mem_iff.2 (List.mem_cons_of_mem here hc))

/-- The next link may lead to a router that is settled. -/
theorem skip {l : LinkId} {links : List LinkId} (h : s.Covers t source sink (l :: links))
    {link : Link Exact} (hl : t.links[l.index]? = some link)
    (hsettled : s.settled[link.sink.index]? = some true) : s.Covers t source sink links where
  source_mem := h.source_mem
  sink_new := h.sink_new
  followed k other hk hsource := by
    rcases h.followed k other hk hsource with hleft | hsink
    · rcases List.mem_cons.1 hleft with rfl | hleft
      · rw [hl, Option.some.injEq] at hk
        exact .inr (.inl (hk ▸ hsettled))
      · exact .inl hleft
    · exact .inr hsink
  latency := h.latency

/-- Or it leads to a router for which the search has a candidate from then on. -/
theorem offer {l : LinkId} {links : List LinkId} (h : s.Covers t source sink (l :: links))
    {c : Candidate Exact} (hc : c.latency.isNumber) {link : Link Exact}
    (hl : t.links[l.index]? = some link) (hlink : link.sink = c.router) :
    Search.Covers t source sink links { s with waiting := LeastLatency.offer c s.waiting } where
  source_mem := h.source_mem.imp_right fun hwaits ↦ (mem_map_router_offer hc).2 (.inr hwaits)
  sink_new := h.sink_new
  followed k other hk hsource := by
    rw [mem_map_router_offer hc]
    rcases h.followed k other hk hsource with hleft | hsink
    · rcases List.mem_cons.1 hleft with rfl | hleft
      · rw [hl, Option.some.injEq] at hk
        exact .inr (.inr (.inl (hk ▸ hlink)))
      · exact .inl hleft
    · exact .inr (hsink.imp_right .inr)
  latency d hd := by
    rcases mem_of_mem_offer hd with rfl | hd
    · exact hc
    · exact h.latency d hd

end Search.Covers

variable (hrouters : ∀ router ∈ t.routers, router.latency.isNumber)
  (hlinks : ∀ link ∈ t.links, link.latency.isNumber)

include hrouters hlinks

/-- **Following the links of a router** leaves none of them out. -/
theorem explore_covers (hc : t.Closed) {here : Candidate Exact} (hhere : here.latency.isNumber)
    {links : List LinkId} (hleaves : ∀ l ∈ links, t.leaves here.router l = true)
    (hsize : s.settled.size = t.routers.size) (h : s.Covers t source sink links)
    {s₁ : Search Exact} (heq : explore t here links s = .ok s₁) :
    s₁.Covers t source sink [] := by
  induction links generalizing s with
  | nil =>
    cases heq
    exact h
  | cons l links ih =>
    obtain ⟨hl, hleaves⟩ := List.forall_mem_cons.1 hleaves
    obtain ⟨link, hlink, -⟩ := Topology.leaves_iff.1 hl
    have hmem := Array.mem_of_getElem? hlink
    have hlt : link.sink.index < t.routers.size := hc link hmem
    have hnext := Array.getElem?_eq_getElem hlt
    obtain ⟨settled, hsettled⟩ : ∃ settled, s.settled[link.sink.index]? = some settled :=
      ⟨_, Array.getElem?_eq_getElem (hsize ▸ hlt)⟩
    rw [explore_cons hlink hnext hsettled] at heq
    cases settled with
    | true => exact ih hleaves hsize (h.skip hlink hsettled) heq
    | false =>
      have hnumber : (here.latency + link.latency + t.routers[link.sink.index].latency).isNumber :=
        Exact.isNumber_add (Exact.isNumber_add hhere (hlinks link hmem))
          (hrouters _ (Array.getElem_mem hlt))
      rw [if_neg Bool.false_ne_true] at heq
      refine ih hleaves ?_ ?_ heq
      · exact hsize
      · exact h.offer hnumber hlink rfl

/-- **A search with a walk to its sink** comes to the sink. -/
theorem exists_search (hw : t.WellFormed) (hc : t.Closed) {walk : Route}
    (hwalk : t.Walk source walk sink) {fuel : Nat} {s' : LinkedSearch Exact}
    (hfollows : s.Follows t source s') (h : s.Covers t source sink [])
    (hfuel : s.settled.count false ≤ fuel) :
    ∃ found, search t sink fuel s = .ok (some found) := by
  induction fuel generalizing s s' with
  | zero =>
    refine absurd (List.eq_nil_iff_forall_not_mem.2 fun c hmem ↦ ?_) (h.waiting_ne_nil hwalk)
    have hcount := count_false_setIfInBounds (hfollows.unsettled c hmem)
    omega
  | succ fuel ih =>
    cases hnext : takeNext s.waiting with
    | none => exact absurd (takeNext_eq_none_iff.1 hnext) (h.waiting_ne_nil hwalk)
    | some next =>
      obtain ⟨here, others⟩ := next
      have hmem : here ∈ s.waiting := (takeNext_perm hnext).mem_iff.2 List.mem_cons_self
      have hunsettled := hfollows.unsettled here hmem
      by_cases hsink : here.router = sink
      · exact ⟨_, search_sink hnext hsink _⟩
      · have hlt := (Array.getElem?_eq_some_iff.1 hunsettled).1
        have hlt' : here.router.index < t.routers.size := hfollows.size_settled ▸ hlt
        have hleaves := t.leaves_of_listed here.router
        obtain ⟨hmarked, hsettle⟩ := hfollows.settle hnext
        obtain ⟨s₁, s₁', heq, -, hfollows₁, hsettled⟩ :=
          explore_follows hc hleaves hsettle hmarked (hfollows.onTrack here hmem)
        have hcovers := explore_covers hrouters hlinks hc (h.latency here hmem) hleaves
          hsettle.size_settled (h.settle hnext hsink hlt) heq
        have hfuel₁ : s₁.settled.count false ≤ fuel := by
          have hcount := count_false_setIfInBounds hunsettled
          rw [hsettled]
          show (s.settled.setIfInBounds here.router.index true).count false ≤ fuel
          omega
        rw [search_cons hnext hsink (hw.outgoing_eq here.router hlt') heq]
        exact ih hfollows₁ hcovers hfuel₁

/-- **Routing with the least latency** finds a route whenever a walk leads to the sink. -/
theorem exists_route (hw : t.WellFormed) (hc : t.Closed) (hsource : source.index < t.routers.size)
    {walk : Route} (hwalk : t.Walk source walk sink) :
    ∃ found, route t source sink = .ok found := by
  by_cases hne : source = sink
  · exact ⟨[], if_pos hne⟩
  · have hstart : (Search.start t source : Search Exact).Covers t source sink [] := by
      have hnone : ∀ r : RouterId,
          (Search.start t source : Search Exact).settled[r.index]? ≠ some true := by
        intro r hr
        simpa [Search.start] using (Array.getElem?_eq_some_iff.1 hr).2
      exact ⟨.inr (List.mem_singleton_self _), hnone sink, fun _ _ _ h ↦ absurd h (hnone _),
        List.forall_mem_singleton.2 rfl⟩
    obtain ⟨found, heq⟩ := exists_search hrouters hlinks hw hc hwalk (follows_start hsource) hstart
      (Nat.le_of_eq count_start)
    have hrouter : t.router source = .ok t.routers[source.index] :=
      Attempt.entry_eq_ok_iff.2 (Array.getElem?_eq_getElem hsource)
    refine ⟨found, ?_⟩
    rw [route, if_neg hne, hrouter, Attempt.ok_bind, heq]
    rfl

end LeastLatency

end NetOnChip
