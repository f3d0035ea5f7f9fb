import Mathlib.Algebra.Order.BigOperators.Group.List
import NetOnChip.Cost.Flow
import NetOnChip.Proofs.Routing.Exhaustive
import NetOnChip.Proofs.Routing.Queue

/-!
# Routes with the least latency are optimal

If no latency is negative then no walk from the source to the sink has a lower latency than the
route that is found (`route_optimal`), whichever priority queue the search uses. Two sums are
compared here: a candidate has the time from the source on, added up link by link as it was
extended, and the cost of a route counts the source as well. Both are the *span* of the route
(`Topology.span`), apart from the source.

The search forgets the candidates whose routers it has settled, so the invariant keeps them
(`Search.Ordered`). They were left in the order of their spans, because going on over a link takes
no time back. All that a link leads to from a router that was left was reached by then, in no more
time than over that link. So by induction over a walk, every router on it was left, unless the walk
takes less time than every candidate that waits (`Search.Ordered.left_of_walk`).
-/

namespace NetOnChip

/-! ### The span of a route -/

namespace Topology

variable {t : Topology Exact}

/-- All latencies are numbers, and none of them is negative. -/
structure Timed (t : Topology Exact) : Prop where
  /-- It takes some time or none to pass a router. -/
  router_latency : ∀ router ∈ t.routers, router.latency.isNumber ∧ 0 ≤ router.latency
  /-- It takes some time or none to go over a link. -/
  link_latency : ∀ link ∈ t.links, link.latency.isNumber ∧ 0 ≤ link.latency

/-- The time to go over a link and to pass the router that it leads to. -/
def hop (t : Topology Exact) (l : LinkId) : ℚ :=
  match t.links[l.index]? with
  | none => 0
  | some link =>
    link.latency.toRat + t.routers[link.sink.index]?.elim 0 fun next ↦ next.latency.toRat

/-- The time from one end of a route to the other, the router at the source not included. -/
def span (t : Topology Exact) (route : Route) : ℚ :=
  (route.map t.hop).sum

theorem toRat_nonneg {a : Exact} (h : a.isNumber ∧ 0 ≤ a) : 0 ≤ a.toRat := by
  obtain ⟨q, rfl⟩ := Exact.isNumber_iff.1 h.1
  exact Exact.number_le_number.1 h.2

theorem hop_eq {l : LinkId} {link : Link Exact} {next : Router Exact}
    (hl : t.links[l.index]? = some link) (hnext : t.routers[link.sink.index]? = some next) :
    t.hop l = link.latency.toRat + next.latency.toRat := by
  rw [hop, hl]
  show link.latency.toRat + (t.routers[link.sink.index]?.elim 0 _) = _
  rw [hnext]
  rfl

theorem Timed.hop_nonneg (ht : t.Timed) (l : LinkId) : 0 ≤ t.hop l := by
  rw [hop]
  split
  · exact le_rfl
  · rename_i link hl
    refine add_nonneg (toRat_nonneg (ht.link_latency link (Array.mem_of_getElem? hl))) ?_
    cases hnext : t.routers[link.sink.index]? with
    | none => exact le_rfl
    | some next => exact toRat_nonneg (ht.router_latency next (Array.mem_of_getElem? hnext))

@[simp] theorem span_nil : t.span [] = 0 := rfl

@[simp] theorem span_cons (l : LinkId) (route : Route) :
    t.span (l :: route) = t.hop l + t.span route := by
  rw [span, List.map_cons, List.sum_cons]
  rfl

@[simp] theorem span_concat (route : Route) (l : LinkId) :
    t.span (route ++ [l]) = t.span route + t.hop l := by
  simp [span]

@[simp] theorem span_reverse (route : Route) : t.span route.reverse = t.span route := by
  rw [span, List.map_reverse, List.sum_reverse]
  rfl

theorem Timed.span_nonneg (ht : t.Timed) (route : Route) : 0 ≤ t.span route :=
  List.sum_nonneg (List.forall_mem_map.2 fun l _ ↦ ht.hop_nonneg l)

/-- What is added up along a walk is its span. -/
theorem foldlM_latency_eq (ht : t.Timed) (hc : t.Closed) {source sink : RouterId} {walk : Route}
    (hwalk : t.Walk source walk sink) (q : ℚ) :
    walk.foldlM
      (fun (sum : Exact) l ↦ do
        let link ← t.link l
        let next ← t.router link.sink
        return sum + (link.latency + next.latency))
      (.number q) = (.ok (.number (q + t.span walk)) : Attempt Exact Exact) := by
  induction hwalk generalizing q with
  | nil => simp [pure, Except.pure]
  | @cons l link route sink hl _ ih =>
    have hmem := Array.mem_of_getElem? hl
    have hlt : link.sink.index < t.routers.size := hc link hmem
    have hnext := Array.getElem?_eq_getElem hlt
    have hlink : t.link l = .ok link := Attempt.entry_eq_ok_iff.2 hl
    have hrouter : t.router link.sink = .ok t.routers[link.sink.index] :=
      Attempt.entry_eq_ok_iff.2 hnext
    have hlatency := Exact.number_toRat (ht.link_latency link hmem).1
    have hlatency' := Exact.number_toRat (ht.router_latency _ (Array.mem_of_getElem? hnext)).1
    rw [List.foldlM_cons, hlink, Attempt.ok_bind, hrouter, Attempt.ok_bind, ← hlatency, ← hlatency',
      Exact.number_add_number, Exact.number_add_number]
    show List.foldlM _ _ route = _
    rw [ih, span_cons, hop_eq hl hnext, add_assoc]

/-- **The latency of a walk** is the time to pass its source and its span. -/
theorem routeLatency_eq (ht : t.Timed) (hc : t.Closed) {source sink : RouterId} {walk : Route}
    (hwalk : t.Walk source walk sink) (hne : walk ≠ []) {start : Router Exact}
    (hstart : t.routers[source.index]? = some start) :
    t.routeLatency walk = .ok (.number (start.latency.toRat + t.span walk)) := by
  have hlatency := Exact.number_toRat (ht.router_latency start (Array.mem_of_getElem? hstart)).1
  cases walk with
  | nil => exact absurd rfl hne
  | cons first route =>
    obtain ⟨link, hl, rfl, -⟩ := walk_cons_iff.1 hwalk
    have hrouter : t.router link.source = .ok start := Attempt.entry_eq_ok_iff.2 hstart
    rw [routeLatency, hl, Attempt.ok_bind, hrouter, Attempt.ok_bind, ← hlatency]
    exact foldlM_latency_eq ht hc hwalk _

end Topology

namespace LeastLatency

variable {t : Topology Exact} {source sink : RouterId}

/-! ### Routers that were left -/

/-- One of some candidates is for a router, and it takes no more than some time. -/
def Within (t : Topology Exact) (candidates : List (Candidate Exact)) (r : RouterId) (q : ℚ) :
    Prop :=
  ∃ c ∈ candidates, c.router = r ∧ t.span c.trail ≤ q

theorem within_self {candidates : List (Candidate Exact)} {c : Candidate Exact}
    (h : c ∈ candidates) : Within t candidates c.router (t.span c.trail) :=
  ⟨c, h, rfl, le_rfl⟩

theorem Within.le {candidates : List (Candidate Exact)} {r : RouterId} {q q' : ℚ}
    (h : Within t candidates r q) (hq : q ≤ q') : Within t candidates r q' := by
  obtain ⟨c, hc, hrouter, hle⟩ := h
  exact ⟨c, hc, hrouter, hle.trans hq⟩

/-- Other candidates may take the place of these if they are as good. -/
theorem Within.replace {candidates others : List (Candidate Exact)} {r : RouterId} {q : ℚ}
    (h : Within t candidates r q)
    (hothers : ∀ c ∈ candidates, Within t others c.router (t.span c.trail)) :
    Within t others r q := by
  obtain ⟨c, hc, rfl, hle⟩ := h
  exact (hothers c hc).le hle

/-- What a search has done so far. It has left some routers, and it has followed their links, except
for some that are pending. -/
structure Search.Ordered (t : Topology Exact) (source : RouterId) (left : List (Candidate Exact))
    (pending : List (Candidate Exact × LinkId)) (s : Search Exact) : Prop where
  /-- The source was reached without taking time. -/
  source_within : Within t (left ++ s.waiting) source 0
  /-- A settled router was left. -/
  marked : ∀ r : RouterId, s.settled[r.index]? = some true → ∃ c ∈ left, c.router = r
  /-- Those that were left take no more time than those that wait. -/
  sorted : ∀ c ∈ left, ∀ d ∈ s.waiting, t.span c.trail ≤ t.span d.trail
  /-- What a link leads to from a router that was left was reached, in no more time than over this
  link. -/
  followed : ∀ c ∈ left, ∀ (l : LinkId) (link : Link Exact), t.links[l.index]? = some link →
    link.source = c.router → (c, l) ∈ pending ∨
      Within t (left ++ s.waiting) link.sink (t.span c.trail + t.hop l)
  /-- The latency of a candidate is the time that its route takes. -/
  latency : ∀ c ∈ s.waiting, c.latency = .number (t.span c.trail)

variable {left : List (Candidate Exact)} {pending : List (Candidate Exact × LinkId)}
  {s : Search Exact}

/-- **Every router on a walk was left**, and it took no more time to come there, unless all that
waits takes longer than the walk. -/
theorem Search.Ordered.left_of_walk (ht : t.Timed) (h : s.Ordered t source left []) {walk : Route}
    {here : RouterId} (hwalk : t.Walk source walk here)
    (hfirst : ∀ c ∈ s.waiting, t.span walk < t.span c.trail) :
    Within t left here (t.span walk) := by
  induction walk using List.reverseRecOn generalizing here with
  | nil =>
    obtain rfl := Topology.walk_nil_iff.1 hwalk
    obtain ⟨c, hc, hrouter, hle⟩ := h.source_within
    rcases List.mem_append.1 hc with hleft | hwaits
    · exact ⟨c, hleft, hrouter, hle⟩
    · exact absurd (hfirst c hwaits) (not_lt_of_ge hle)
  | append_singleton walk l ih =>
    obtain ⟨link, hl, rfl, hfront⟩ := Topology.walk_concat_iff.1 hwalk
    rw [Topology.span_concat] at hfirst ⊢
    have hhop := ht.hop_nonneg l
    obtain ⟨c, hc, hrouter, hle⟩ := ih hfront fun c hc ↦ by linarith [hfirst c hc]
    obtain ⟨d, hd, hsink, hle'⟩ :=
      (h.followed c hc l link hl hrouter.symm).resolve_left List.not_mem_nil
    rcases List.mem_append.1 hd with hleft | hwaits
    · exact ⟨d, hleft, hsink, by linarith⟩
    · linarith [hfirst d hwaits]

/-- The candidate that is taken out takes no more time than the others. -/
theorem span_le_of_takeNext {waiting others : List (Candidate Exact)} {here : Candidate Exact}
    (hnodup : (waiting.map (·.router)).Nodup)
    (hlatency : ∀ c ∈ waiting, c.latency = .number (t.span c.trail))
    (hnext : takeNext waiting = some (here, others)) :
    ∀ d ∈ waiting, t.span here.trail ≤ t.span d.trail := by
  intro d hd
  have hperm := takeNext_perm hnext
  have hhere := hlatency here (hperm.mem_iff.2 List.mem_cons_self)
  rcases List.mem_cons.1 (hperm.mem_iff.1 hd) with rfl | hother
  · exact le_rfl
  · have hprecedes := Candidate.precedes_iff.1 (precedes_of_takeNext hnodup hnext d hother)
    rw [Candidate.order, hhere, hlatency d hd, Exact.number_order_number] at hprecedes
    rcases Ordering.then_eq_lt.1 hprecedes with hlt | ⟨heq, -⟩
    · exact (compare_lt_iff_lt.1 hlt).le
    · exact (compare_eq_iff_eq.1 heq).le

/-- For whatever waits, and for the candidate that is offered, one that is as good waits
afterwards. -/
theorem within_offer {c d : Candidate Exact} {waiting : List (Candidate Exact)}
    (hc : c.latency = .number (t.span c.trail))
    (hlatency : ∀ e ∈ waiting, e.latency = .number (t.span e.trail)) (hd : d ∈ c :: waiting) :
    Within t (offer c waiting) d.router (t.span d.trail) := by
  induction waiting with
  | nil =>
    have hnumber : c.latency < Scalar.infinity := hc ▸ rfl
    rw [offer, if_pos hnumber]
    exact within_self hd
  | cons e waiting ih =>
    obtain ⟨he, hrest⟩ := List.forall_mem_cons.1 hlatency
    have hless : c.latency < e.latency ↔ t.span c.trail < t.span e.trail := by
      rw [hc, he, Exact.number_lt_number]
    rw [offer]
    split
    · rename_i hrouter
      split <;> rename_i hbetter <;> rw [hless] at hbetter
      · rcases List.mem_cons.1 hd with rfl | hd
        · exact within_self List.mem_cons_self
        · rcases List.mem_cons.1 hd with rfl | hd
          · exact ⟨c, List.mem_cons_self, hrouter.symm, hbetter.le⟩
          · exact within_self (List.mem_cons_of_mem c hd)
      · rcases List.mem_cons.1 hd with rfl | hd
        · exact ⟨e, List.mem_cons_self, hrouter, not_lt.1 hbetter⟩
        · exact within_self hd
    · have hother : d = e ∨ d ∈ c :: waiting := by
        simp only [List.mem_cons] at hd ⊢
        tauto
      rcases hother with rfl | hd
      · exact within_self List.mem_cons_self
      · exact (ih hrest hd).replace fun f hf ↦ within_self (List.mem_cons_of_mem e hf)

/-! ### Leaving a router -/

/-- The router that is next is left, and its links are pending. -/
theorem Search.Ordered.settle (h : s.Ordered t source left [])
    (hnodup : (s.waiting.map (·.router)).Nodup) {here : Candidate Exact}
    {others : List (Candidate Exact)} (hnext : takeNext s.waiting = some (here, others)) :
    Search.Ordered t source (left ++ [here])
      (((Id.range t.links.size).filter (t.leaves here.router)).map (Prod.mk here))
      { settled := s.settled.setIfInBounds here.router.index true, waiting := others } := by
  have hperm := takeNext_perm hnext
  have hfirst := span_le_of_takeNext hnodup h.latency hnext
  have hwaits : ∀ {c}, c ∈ others → c ∈ s.waiting := fun hc ↦
    hperm.mem_iff.2 (List.mem_cons_of_mem here hc)
  have hmem : ∀ {c}, c ∈ left ++ s.waiting → c ∈ left ++ [here] ++ others := by
    intro c hc
    simpa only [List.append_assoc, List.singleton_append, List.mem_append, hperm.mem_iff] using hc
  have hkept : ∀ {r q}, Within t (left ++ s.waiting) r q →
      Within t (left ++ [here] ++ others) r q := fun hreached ↦
    hreached.replace fun _ hc ↦ within_self (hmem hc)
  refine ⟨hkept h.source_within, fun r hr ↦ ?_, fun c hc d hd ↦ ?_,
    fun c hc l link hl hlink ↦ ?_, fun c hc ↦ h.latency c (hwaits hc)⟩
  · rcases eq_or_ne here.router r with rfl | hne
    · exact ⟨here, by simp, rfl⟩
    · rw [Array.getElem?_setIfInBounds, if_neg fun e ↦ hne (Id.ext e)] at hr
      obtain ⟨c, hc, hrouter⟩ := h.marked r hr
      exact ⟨c, List.mem_append_left _ hc, hrouter⟩
  · rcases List.mem_append.1 hc with hleft | hhere
    · exact h.sorted c hleft d (hwaits hd)
    · exact List.mem_singleton.1 hhere ▸ hfirst d (hwaits hd)
  · rcases List.mem_append.1 hc with hleft | hhere
    · exact .inr (hkept ((h.followed c hleft l link hl hlink).resolve_left List.not_mem_nil))
    · obtain rfl := List.mem_singleton.1 hhere
      refine .inl (List.mem_map.2 ⟨l, List.mem_filter.2 ⟨Id.mem_range.2 ?_, ?_⟩, rfl⟩)
      · exact (Array.getElem?_eq_some_iff.1 hl).1
      · exact Topology.leaves_iff.2 ⟨link, hl, hlink⟩

/-- The next link is followed once what it leads to was reached, in no more time than over it. -/
theorem Search.Ordered.follow {here : Candidate Exact} {l : LinkId} {link : Link Exact}
    (h : s.Ordered t source left ((here, l) :: pending)) (hl : t.links[l.index]? = some link)
    (hsink : Within t (left ++ s.waiting) link.sink (t.span here.trail + t.hop l)) :
    s.Ordered t source left pending where
  source_within := h.source_within
  marked := h.marked
  sorted := h.sorted
  followed c hc k other hk hsource := by
    rcases h.followed c hc k other hk hsource with hpending | hreached
    · rcases List.mem_cons.1 hpending with heq | hpending
      · obtain ⟨rfl, rfl⟩ := Prod.mk.inj heq
        rw [hl, Option.some.injEq] at hk
        exact .inr (hk ▸ hsink)
      · exact .inl hpending
    · exact .inr hreached
  latency := h.latency

/-- A candidate may be offered that takes no less time than those that were left. -/
theorem Search.Ordered.offer (h : s.Ordered t source left pending) {c : Candidate Exact}
    (hc : c.latency = .number (t.span c.trail))
    (hlast : ∀ d ∈ left, t.span d.trail ≤ t.span c.trail) :
    Search.Ordered t source left pending { s with waiting := LeastLatency.offer c s.waiting } := by
  have hkept : ∀ {r q}, Within t (left ++ s.waiting) r q →
      Within t (left ++ LeastLatency.offer c s.waiting) r q := by
    refine fun hreached ↦ hreached.replace fun d hd ↦ ?_
    rcases List.mem_append.1 hd with hleft | hwaits
    · exact within_self (List.mem_append_left _ hleft)
    · exact (within_offer hc h.latency (List.mem_cons_of_mem c hwaits)).replace fun e he ↦
        within_self (List.mem_append_right _ he)
  refine ⟨hkept h.source_within, h.marked, fun d hd e he ↦ ?_, fun d hd k other hk hsource ↦ ?_,
    fun d hd ↦ ?_⟩
  · rcases mem_of_mem_offer he with rfl | hwaits
    · exact hlast d hd
    · exact h.sorted d hd e hwaits
  · exact (h.followed d hd k other hk hsource).imp_right hkept
  · rcases mem_of_mem_offer hd with rfl | hwaits
    · exact hc
    · exact h.latency d hwaits

/-- The latency of a candidate that goes on over a link is the time that its route takes. -/
theorem latency_next (ht : t.Timed) {here : Candidate Exact}
    (hhere : here.latency = .number (t.span here.trail)) {l : LinkId} {link : Link Exact}
    {next : Router Exact} (hl : t.links[l.index]? = some link)
    (hnext : t.routers[link.sink.index]? = some next) :
    here.latency + link.latency + next.latency = .number (t.span (l :: here.trail)) := by
  have hlatency := Exact.number_toRat (ht.link_latency link (Array.mem_of_getElem? hl)).1
  have hlatency' := Exact.number_toRat (ht.router_latency next (Array.mem_of_getElem? hnext)).1
  rw [hhere, ← hlatency, ← hlatency', Exact.number_add_number, Exact.number_add_number,
    Topology.span_cons, Topology.hop_eq hl hnext, add_assoc, add_comm]

/-- **All links of a router are followed** before the next one is left. -/
theorem explore_ordered (ht : t.Timed) (hc : t.Closed) {here : Candidate Exact}
    (hhere : here.latency = .number (t.span here.trail))
    (hlast : ∀ c ∈ left, t.span c.trail ≤ t.span here.trail) {links : List LinkId}
    (hleaves : ∀ l ∈ links, t.leaves here.router l = true) (hsize : s.settled.size = t.routers.size)
    (h : s.Ordered t source left (links.map (Prod.mk here))) {s₁ : Search Exact}
    (heq : explore t here links s = .ok s₁) : s₁.Ordered t source left [] := by
  induction links generalizing s with
  | nil =>
    obtain rfl := Except.ok.inj heq
    exact h
  | cons l links ih =>
    obtain ⟨hl, hleaves⟩ := List.forall_mem_cons.1 hleaves
    obtain ⟨link, hlink, -⟩ := Topology.leaves_iff.1 hl
    have hmem := Array.mem_of_getElem? hlink
    have hlt : link.sink.index < t.routers.size := hc link hmem
    have hnext := Array.getElem?_eq_getElem hlt
    obtain ⟨settled, hsettled⟩ : ∃ settled, s.settled[link.sink.index]? = some settled :=
      ⟨_, Array.getElem?_eq_getElem (hsize ▸ hlt)⟩
    have hfar : ∀ c ∈ left, t.span c.trail ≤ t.span here.trail + t.hop l := fun c hc ↦
      (hlast c hc).trans (le_add_of_nonneg_right (ht.hop_nonneg l))
    rw [explore_cons hlink hnext hsettled] at heq
    cases settled with
    | true =>
      obtain ⟨c, hc, hrouter⟩ := h.marked link.sink hsettled
      exact ih hleaves hsize (h.follow hlink ⟨c, List.mem_append_left _ hc, hrouter, hfar c hc⟩) heq
    | false =>
      have hspan : t.span (l :: here.trail) = t.span here.trail + t.hop l := by
        rw [Topology.span_cons, add_comm]
      have hnumber := latency_next ht hhere hlink hnext
      rw [if_neg Bool.false_ne_true] at heq
      refine ih hleaves ?_ ?_ heq
      · exact hsize
      · refine (h.offer hnumber (hspan ▸ hfar)).follow hlink ?_
        have hoffered :=
          within_offer (c := ⟨link.sink, _, l :: here.trail⟩) hnumber h.latency List.mem_cons_self
        rw [← hspan]
        exact hoffered.replace fun e he ↦ within_self (List.mem_append_right _ he)

/-- **What a search finds** takes no more time than any walk to its sink. -/
theorem span_le_of_search (ht : t.Timed) (hw : t.WellFormed) (hc : t.Closed) {walk : Route}
    (hwalk : t.Walk source walk sink) {fuel : Nat} {s' : LinkedSearch Exact}
    (hfollows : s.Follows t source s') (h : s.Ordered t source left [])
    (hleft : ∀ c ∈ left, c.router ≠ sink) {found : Route}
    (heq : search t sink fuel s = .ok (some found)) : t.span found ≤ t.span walk := by
  induction fuel using Nat.strongRecOn generalizing s s' left with
  | ind fuel ih =>
    cases hnext : takeNext s.waiting with
    | none =>
      rw [search_nil (takeNext_eq_none_iff.1 hnext)] at heq
      nomatch heq
    | some next =>
      obtain ⟨here, others⟩ := next
      have hmem : here ∈ s.waiting := (takeNext_perm hnext).mem_iff.2 List.mem_cons_self
      have hfirst := span_le_of_takeNext hfollows.nodup h.latency hnext
      by_cases hsink : here.router = sink
      · rw [search_sink hnext hsink] at heq
        obtain rfl := Option.some.inj (Except.ok.inj heq)
        rw [Topology.span_reverse]
        -- otherwise the sink would have been left before
        by_contra hlt
        obtain ⟨c, hc, hrouter, -⟩ := h.left_of_walk ht hwalk fun c hc ↦
          (not_le.1 hlt).trans_le (hfirst c hc)
        exact hleft c hc hrouter
      · have hlt : here.router.index < t.routers.size :=
          hfollows.size_settled ▸ (Array.getElem?_eq_some_iff.1 (hfollows.unsettled here hmem)).1
        have hleaves := t.leaves_of_listed here.router
        obtain ⟨hmarked, hsettle⟩ := hfollows.settle hnext
        obtain ⟨s₁, s₁', hexplore, -, hfollows₁, -⟩ :=
          explore_follows hc hleaves hsettle hmarked (hfollows.onTrack here hmem)
        have hlast : ∀ c ∈ left ++ [here], t.span c.trail ≤ t.span here.trail := by
          intro c hc
          rcases List.mem_append.1 hc with hc | hc
          · exact h.sorted c hc here hmem
          · rw [List.mem_singleton.1 hc]
        have hleft₁ : ∀ c ∈ left ++ [here], c.router ≠ sink := by
          intro c hc
          rcases List.mem_append.1 hc with hc | hc
          · exact hleft c hc
          · rwa [List.mem_singleton.1 hc]
        cases fuel with
        | zero =>
          rw [search_zero hnext hsink] at heq
          nomatch heq
        | succ fuel =>
          rw [search_cons hnext hsink (hw.outgoing_eq here.router hlt) hexplore] at heq
          exact ih fuel fuel.lt_succ_self hfollows₁ (explore_ordered ht hc (h.latency here hmem)
            hlast hleaves hsettle.size_settled (h.settle hfollows.nodup hnext) hexplore) hleft₁ heq

/-! ### Routes -/

/-- A search starts with its source. -/
theorem ordered_start (t : Topology Exact) (source : RouterId) :
    (Search.start t source : Search Exact).Ordered t source [] [] where
  source_within := ⟨_, List.mem_singleton_self _, rfl, le_rfl⟩
  marked r hr := by simpa [Search.start] using (Array.getElem?_eq_some_iff.1 hr).2
  sorted _ hc := absurd hc List.not_mem_nil
  followed _ hc := absurd hc List.not_mem_nil
  latency := List.forall_mem_singleton.2 rfl

/-- No walk takes less time than the route that is found. -/
theorem span_le_of_route (ht : t.Timed) (hw : t.WellFormed) (hc : t.Closed)
    (hsource : source.index < t.routers.size) {found walk : Route}
    (hfound : route t source sink = .ok found) (hwalk : t.Walk source walk sink) :
    t.span found ≤ t.span walk := by
  rw [route] at hfound
  split at hfound
  · obtain rfl := Except.ok.inj hfound
    exact ht.span_nonneg walk
  · obtain ⟨_, -, hfound⟩ := Attempt.bind_eq_ok_iff.1 hfound
    obtain ⟨result, hsearch, hfound⟩ := Attempt.bind_eq_ok_iff.1 hfound
    cases result with
    | none => cases hfound
    | some route =>
      obtain rfl := Except.ok.inj hfound
      exact span_le_of_search ht hw hc hwalk (follows_start hsource) (ordered_start t source)
        (fun _ h ↦ absurd h List.not_mem_nil) hsearch

/-- No walk has a lower latency than the route that is found. -/
theorem exists_least (ht : t.Timed) (hw : t.WellFormed) (hc : t.Closed)
    (hsource : source.index < t.routers.size) {found : Route}
    (hfound : route t source sink = .ok found) (hwalk : t.Walk source found sink) :
    ∃ least, t.routeLatency found = .ok least ∧ ∀ walk, t.Walk source walk sink →
      ∃ latency, t.routeLatency walk = .ok latency ∧ least ≤ latency := by
  have hstart := Array.getElem?_eq_getElem hsource
  have hpass := Topology.toRat_nonneg (ht.router_latency _ (Array.getElem_mem hsource))
  have hlatency : ∀ {walk}, t.Walk source walk sink → walk ≠ [] → t.routeLatency walk =
      .ok (.number (t.routers[source.index].latency.toRat + t.span walk)) := fun hwalk hne ↦
    Topology.routeLatency_eq ht hc hwalk hne hstart
  by_cases hstays : found = []
  · subst hstays
    refine ⟨0, rfl, fun walk hwalk ↦ ?_⟩
    by_cases hne : walk = []
    · subst hne
      exact ⟨0, rfl, Exact.number_le_number.2 le_rfl⟩
    · refine ⟨_, hlatency hwalk hne, Exact.number_le_number.2 ?_⟩
      exact add_nonneg hpass (ht.span_nonneg walk)
  · refine ⟨_, hlatency hwalk hstays, fun walk hwalk' ↦ ?_⟩
    have hne : walk ≠ [] := by
      rintro rfl
      rw [route, if_pos (Topology.walk_nil_iff.1 hwalk')] at hfound
      exact hstays (Except.ok.inj hfound).symm
    refine ⟨_, hlatency hwalk' hne, Exact.number_le_number.2 ?_⟩
    exact add_le_add_right (span_le_of_route ht hw hc hsource hfound hwalk') _

/-- **Routes with the least latency are optimal**, whichever queue decides which router is settled
next. A route is found exactly if a walk leads from the source to the sink, and no such walk has a
lower latency than the route, as costs count latencies. -/
theorem route_optimal {q : Queue Exact} (hq : q.Lawful) (hbuilt : t.Built) (hc : t.Closed)
    (ht : t.Timed) (hsource : source.index < t.routers.size) :
    routeQueued q t source sink = (route t source sink).map some ∧
    ((∃ found, route t source sink = .ok found) ↔ ∃ walk, t.Walk source walk sink) ∧
    ((∀ walk, ¬ t.Walk source walk sink) →
      ∃ why, route t source sink =
        Attempt.fail (.routingFailed .leastLatency source sink why)) ∧
    ∀ found, route t source sink = .ok found → t.Walk source found sink ∧
      ∃ least, t.routeLatency found = .ok least ∧ ∀ walk, t.Walk source walk sink →
        ∃ latency, t.routeLatency walk = .ok latency ∧ least ≤ latency := by
  have hw := hbuilt.wellFormed
  have hexists : ∀ {walk}, t.Walk source walk sink → ∃ found, route t source sink = .ok found :=
    exists_route (fun router hr ↦ (ht.router_latency router hr).1)
      (fun link hl ↦ (ht.link_latency link hl).1) hw hc hsource
  rw [routeQueued_eq hq]
  obtain ⟨found, hpath, hfound, hlinked⟩ | ⟨why, hfail, hlinked⟩ := route_cases hw hc hsource sink
  · refine ⟨?_, iff_of_true ⟨found, hfound⟩ ⟨found, hpath.walk⟩, fun hnone ↦ ?_, ?_⟩
    · rw [hfound, hlinked]
      rfl
    · exact absurd hpath.walk (hnone found)
    · intro found' hfound'
      obtain rfl := Except.ok.inj (hfound.symm.trans hfound')
      obtain ⟨least, hleast, hall⟩ := exists_least ht hw hc hsource hfound hpath.walk
      exact ⟨hpath.walk, least, hleast, hall⟩
  · have hnone : ∀ found, route t source sink ≠ .ok found := by
      intro found hfound
      rw [hfail] at hfound
      nomatch hfound
    refine ⟨?_, ⟨fun ⟨found, hfound⟩ ↦ absurd hfound (hnone found), fun ⟨_, hwalk⟩ ↦ hexists hwalk⟩,
      fun _ ↦ ⟨why, hfail⟩, fun found hfound ↦ absurd hfound (hnone found)⟩
    rw [hfail, hlinked]
    rfl

theorem timed_diamond : Diamond.topology.Timed where
  router_latency := by decide
  link_latency := by decide

/-- Around a diamond the route takes the fast one of two parallel links, and not the link that is
listed first. -/
theorem route_optimal_diamond :
    ((Queue.ofList Exact).Lawful ∧ Diamond.topology.Built ∧ Diamond.topology.Closed ∧
      Diamond.topology.Timed ∧ 0 < Diamond.topology.routers.size) ∧
      routeQueued (Queue.ofList Exact) Diamond.topology ⟨0⟩ ⟨3⟩ = .ok (some [⟨3⟩, ⟨4⟩]) ∧
      Diamond.topology.routeLatency [⟨3⟩, ⟨4⟩] = .ok (.number 5) ∧
      ∀ walk, Diamond.topology.Walk ⟨0⟩ walk ⟨3⟩ →
        ∃ latency, Diamond.topology.routeLatency walk = .ok latency ∧ .number 5 ≤ latency := by
  have hroute : route Diamond.topology ⟨0⟩ ⟨3⟩ = .ok [⟨3⟩, ⟨4⟩] := by decide +kernel
  have hleast : Diamond.topology.routeLatency [⟨3⟩, ⟨4⟩] = .ok (.number 5) := by decide +kernel
  obtain ⟨hqueued, -, -, hoptimal⟩ := @route_optimal _ ⟨0⟩ ⟨3⟩ _ (@Queue.lawful_ofList Exact _ _)
    Diamond.built_topology Diamond.closed_topology timed_diamond (by decide)
  obtain ⟨-, least, hlatency, hall⟩ := hoptimal _ hroute
  obtain rfl := Except.ok.inj (hlatency.symm.trans hleast)
  refine ⟨⟨Queue.lawful_ofList, Diamond.built_topology, Diamond.closed_topology, timed_diamond,
    by decide⟩, ?_, hleast, hall⟩
  rw [hqueued, hroute]
  rfl

end LeastLatency

end NetOnChip
