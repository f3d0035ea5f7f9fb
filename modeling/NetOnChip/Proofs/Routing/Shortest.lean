import Mathlib.Data.List.Lex
import Mathlib.Data.Prod.Lex
import NetOnChip.Proofs.Routing.FewestHops

/-!
# The first among the shortest walks

A breadth-first search finds a route whenever a walk leads to the sink, and no walk comes before
that route (`exists_route_le`): walks are compared by their length and then by their links, from the
source on (`rank`). So among all walks from the source to the sink the route is the first one of the
shortest (`route_firstWalk`), also where routers have links to themselves or several links to the
same router.

The search itself forgets the routers that it has left, so the invariant keeps them
(`Search.Ordered`). Routers are left in the order of the ranks of their routes. All that a link
leads to from a router that was left was reached by then, and by a route that does not come after
the one over that link. So by induction over a walk, every router on it is left, unless the walk
comes after a route that still waits (`Search.Ordered.left_of_walk`).
-/

namespace NetOnChip

namespace FewestHops

/-! ### The order of routes -/

/-- What routes are compared by: the number of their links first, and then the links. -/
def rank (route : Route) : ℕ ×ₗ List ℕ :=
  toLex (route.length, route.map (·.index))

theorem rank_inj {r r' : Route} (h : rank r = rank r') : r = r' := by
  have hmap : r.map (·.index) = r'.map (·.index) := congrArg (fun k ↦ (ofLex k).2) h
  exact List.map_injective_iff.2 (fun _ _ ↦ Id.ext) hmap

theorem rank_lt_iff {r r' : Route} :
    rank r < rank r' ↔ r.length < r'.length ∨
      r.length = r'.length ∧ List.Lex (· < ·) (r.map (·.index)) (r'.map (·.index)) :=
  Prod.Lex.toLex_lt_toLex

/-- A route does not come after another one if it is shorter, or if both have as many links and it
has the lower one where the two first differ, if they do. -/
theorem rank_le_iff {r r' : Route} :
    rank r ≤ rank r' ↔ r.length < r'.length ∨
      r.length = r'.length ∧ (r = r' ∨ List.Lex (· < ·) (r.map (·.index)) (r'.map (·.index))) := by
  rw [le_iff_lt_or_eq, rank_lt_iff]
  constructor
  · rintro ((hlt | ⟨hlength, hlex⟩) | heq)
    · exact .inl hlt
    · exact .inr ⟨hlength, .inr hlex⟩
    · obtain rfl := rank_inj heq
      exact .inr ⟨rfl, .inl rfl⟩
  · rintro (hlt | ⟨hlength, rfl | hlex⟩)
    · exact .inl (.inl hlt)
    · exact .inr rfl
    · exact .inl (.inr ⟨hlength, hlex⟩)

theorem length_le_of_rank_le {r r' : Route} (h : rank r ≤ rank r') : r.length ≤ r'.length := by
  by_contra hlt
  exact absurd h (not_le_of_gt (rank_lt_iff.2 (.inl (by omega))))

/-- Lists of one length keep their order, whatever comes after them. -/
theorem lex_append {u v : List ℕ} (h : List.Lex (· < ·) u v) (hlength : u.length = v.length)
    (s s' : List ℕ) : List.Lex (· < ·) (u ++ s) (v ++ s') := by
  induction h with
  | nil => cases hlength
  | cons _ ih => exact .cons (ih (by simpa using hlength))
  | rel h => exact .rel h

/-- The empty route comes first. -/
theorem rank_nil_le (r : Route) : rank [] ≤ rank r := by
  cases r with
  | nil => exact le_rfl
  | cons l r =>
    have hlt : rank [] < rank (l :: r) := rank_lt_iff.2 (.inl (Nat.succ_pos r.length))
    exact hlt.le

theorem rank_lt_concat (r : Route) (l : LinkId) : rank r < rank (r ++ [l]) :=
  rank_lt_iff.2 (.inl (by simp))

/-- Routes keep their order when each of them goes on over a link. -/
theorem rank_concat_lt {r r' : Route} (h : rank r < rank r') (l l' : LinkId) :
    rank (r ++ [l]) < rank (r' ++ [l']) := by
  rw [rank_lt_iff] at h ⊢
  rcases h with hlength | ⟨hlength, hlex⟩
  · exact .inl (by simpa using hlength)
  · refine .inr ⟨by simpa using hlength, ?_⟩
    rw [List.map_append, List.map_append]
    exact lex_append hlex (by simpa using hlength) _ _

/-- A route that goes on over a link comes before the same route over a later one. -/
theorem rank_concat_lt_concat (r : Route) {l l' : LinkId} (h : l.index < l'.index) :
    rank (r ++ [l]) < rank (r ++ [l']) := by
  rw [rank_lt_iff, List.map_append, List.map_append]
  exact .inr ⟨by simp, List.Lex.append_left _ (.rel h) _⟩

theorem rank_concat_le {r r' : Route} (h : rank r ≤ rank r') (l : LinkId) :
    rank (r ++ [l]) ≤ rank (r' ++ [l]) := by
  rcases h.lt_or_eq with hlt | heq
  · exact (rank_concat_lt hlt l l).le
  · rw [rank_inj heq]

variable {α : Type} {t : Topology α} {source sink : RouterId}

/-! ### Routers that were left -/

/-- The route by which a router was reached. -/
def Reached.route (c : Reached) : Route :=
  c.trail.reverse

/-- What a search has done so far. It has left some routers, in this order, and it has followed all
their links. -/
structure Search.Ordered (t : Topology α) (source : RouterId) (left : List Reached) (s : Search) :
    Prop where
  /-- The source was reached without a link. -/
  source_mem : ⟨source, []⟩ ∈ left ++ s.waiting
  /-- A marked router was left or waits. -/
  marked : ∀ r : RouterId, s.reached[r.index]? = some true → ∃ c ∈ left ++ s.waiting, c.router = r
  /-- Routers are reached in the order of their routes. -/
  sorted : (left ++ s.waiting).Pairwise fun c d ↦ rank c.route < rank d.route
  /-- The links of a router that was left lead to routers that were reached, and by routes that do
  not come later. -/
  followed : ∀ c ∈ left, ∀ (l : LinkId) (link : Link α), t.links[l.index]? = some link →
    link.source = c.router →
      ∃ d ∈ left ++ s.waiting, d.router = link.sink ∧ rank d.route ≤ rank (c.route ++ [l])

/-- No waiting route comes after one that goes on from another waiting router. -/
def Level (waiting : List Reached) : Prop :=
  ∀ c ∈ waiting, ∀ d ∈ waiting, ∀ l, rank c.route < rank (d.route ++ [l])

variable {left : List Reached} {s : Search}

/-- **Every router on a walk was left**, by a route that does not come after the walk, unless the
walk comes after a route that waits. -/
theorem Search.Ordered.left_of_walk (h : s.Ordered t source left) {walk : Route} {here : RouterId}
    (hwalk : t.Walk source walk here) (hfirst : ∀ c ∈ s.waiting, rank walk < rank c.route) :
    ∃ c ∈ left, c.router = here ∧ rank c.route ≤ rank walk := by
  induction walk using List.reverseRecOn generalizing here with
  | nil =>
    obtain rfl := Topology.walk_nil_iff.1 hwalk
    rcases List.mem_append.1 h.source_mem with hleft | hwaits
    · exact ⟨_, hleft, rfl, le_rfl⟩
    · exact absurd (hfirst _ hwaits) (lt_irrefl _)
  | append_singleton walk l ih =>
    obtain ⟨link, hl, rfl, hfront⟩ := Topology.walk_concat_iff.1 hwalk
    obtain ⟨c, hc, hrouter, hle⟩ := ih hfront fun c hc ↦ (rank_lt_concat walk l).trans (hfirst c hc)
    obtain ⟨d, hd, hsink, hle'⟩ := h.followed c hc l link hl hrouter.symm
    have hbound := hle'.trans (rank_concat_le hle l)
    rcases List.mem_append.1 hd with hleft | hwaits
    · exact ⟨d, hleft, hsink, hbound⟩
    · exact absurd (hfirst d hwaits) (not_lt_of_ge hbound)

/-! ### Leaving a router -/

/-- A search while it follows the links of a router, which counts as waiting until all of them were
followed. Some links are still to be followed. -/
structure Search.Leaving (t : Topology α) (source : RouterId) (left : List Reached)
    (here : Reached) (links : List LinkId) (s : Search) : Prop where
  /-- There is one mark for every router. -/
  size_reached : s.reached.size = t.routers.size
  /-- The router is still in front. -/
  ordered : Search.Ordered t source left { s with waiting := here :: s.waiting }
  /-- The routes of the others differ by one link at most. -/
  level : Level s.waiting
  /-- They come before those that go on over the links to be followed. -/
  ahead : ∀ c ∈ s.waiting, ∀ l ∈ links, rank c.route < rank (here.route ++ [l])
  /-- The other links were followed. -/
  followed : ∀ (l : LinkId) (link : Link α), t.links[l.index]? = some link →
    link.source = here.router → l ∉ links →
      ∃ d ∈ left ++ here :: s.waiting, d.router = link.sink ∧
        rank d.route ≤ rank (here.route ++ [l])

namespace Search.Leaving

variable {here : Reached} {l : LinkId} {link : Link α} {links : List LinkId}

/-- All routers that were reached come before what the next link leads to. -/
theorem rank_lt (h : s.Leaving t source left here (l :: links)) {c : Reached}
    (hc : c ∈ left ++ here :: s.waiting) : rank c.route < rank (here.route ++ [l]) := by
  have hsorted := List.pairwise_append.1 h.ordered.sorted
  rcases List.mem_append.1 hc with hleft | hwaits
  · exact (hsorted.2.2 c hleft here List.mem_cons_self).trans (rank_lt_concat _ l)
  · rcases List.mem_cons.1 hwaits with rfl | hwaits
    · exact rank_lt_concat _ l
    · exact h.ahead c hwaits l List.mem_cons_self

/-- The next link may lead to a router that was reached before. -/
theorem skip (h : s.Leaving t source left here (l :: links))
    (hl : t.links[l.index]? = some link) (hseen : s.reached[link.sink.index]? = some true) :
    s.Leaving t source left here links where
  size_reached := h.size_reached
  ordered := h.ordered
  level := h.level
  ahead c hc k hk := h.ahead c hc k (List.mem_cons_of_mem l hk)
  followed k other hother hsource hk := by
    rcases eq_or_ne k l with rfl | hne
    · rw [hl, Option.some.injEq] at hother
      subst hother
      obtain ⟨c, hc, hrouter⟩ := h.ordered.marked link.sink hseen
      exact ⟨c, hc, hrouter, (h.rank_lt hc).le⟩
    · exact h.followed k other hother hsource (List.not_mem_cons_of_ne_of_not_mem hne hk)

/-- Or it leads to a new router, which waits behind all others. -/
theorem reach (h : s.Leaving t source left here (l :: links))
    (hlinks : ∀ k ∈ links, l.index < k.index) (hl : t.links[l.index]? = some link) :
    Search.Leaving t source left here links
      { reached := s.reached.setIfInBounds link.sink.index true
        waiting := s.waiting ++ [⟨link.sink, l :: here.trail⟩] } := by
  have hroute : Reached.route ⟨link.sink, l :: here.trail⟩ = here.route ++ [l] :=
    List.reverse_cons
  have hmem : ∀ {c}, c ∈ left ++ here :: s.waiting →
      c ∈ left ++ here :: (s.waiting ++ [⟨link.sink, l :: here.trail⟩]) := by
    intro c hc
    simp only [List.mem_append, List.mem_cons] at hc ⊢
    tauto
  have hlast : (⟨link.sink, l :: here.trail⟩ : Reached) ∈
      left ++ here :: (s.waiting ++ [⟨link.sink, l :: here.trail⟩]) := by simp
  have hsorted := List.pairwise_append.1 h.ordered.sorted
  have hhere : ∀ c ∈ s.waiting, rank here.route < rank c.route :=
    (List.pairwise_cons.1 hsorted.2.1).1
  constructor
  · simpa using h.size_reached
  · refine ⟨hmem h.ordered.source_mem, fun r hr ↦ ?_, ?_, fun c hc k other hother hsource ↦ ?_⟩
    · rcases eq_or_ne link.sink r with rfl | hne
      · exact ⟨_, hlast, rfl⟩
      · have hold : s.reached[r.index]? = some true := by
          rwa [Array.getElem?_setIfInBounds, if_neg fun e ↦ hne (Id.ext e)] at hr
        obtain ⟨c, hc, hrouter⟩ := h.ordered.marked r hold
        exact ⟨c, hmem hc, hrouter⟩
    · show (left ++ here :: (s.waiting ++ [_])).Pairwise _
      rw [← List.cons_append, ← List.append_assoc]
      refine List.pairwise_append.2 ⟨h.ordered.sorted, List.pairwise_singleton _ _, ?_⟩
      intro c hc d hd
      obtain rfl := List.mem_singleton.1 hd
      rw [hroute]
      exact h.rank_lt hc
    · obtain ⟨d, hd, hsink, hle⟩ := h.ordered.followed c hc k other hother hsource
      exact ⟨d, hmem hd, hsink, hle⟩
  · -- the new route goes on from the router that is left, and this one comes before all others
    intro c hc d hd k
    rcases List.mem_append.1 hc with hc | hc <;> rcases List.mem_append.1 hd with hd | hd
    · exact h.level c hc d hd k
    · rw [List.mem_singleton.1 hd, hroute]
      exact (h.ahead c hc l List.mem_cons_self).trans (rank_lt_concat _ k)
    · rw [List.mem_singleton.1 hc, hroute]
      exact rank_concat_lt (hhere d hd) l k
    · rw [List.mem_singleton.1 hc, List.mem_singleton.1 hd]
      exact rank_lt_concat _ k
  · intro c hc k hk
    rcases List.mem_append.1 hc with hc | hc
    · exact h.ahead c hc k (List.mem_cons_of_mem l hk)
    · rw [List.mem_singleton.1 hc, hroute]
      exact rank_concat_lt_concat _ (hlinks k hk)
  · intro k other hother hsource hk
    rcases eq_or_ne k l with rfl | hne
    · rw [hl, Option.some.injEq] at hother
      subst hother
      exact ⟨_, hlast, rfl, hroute ▸ le_rfl⟩
    · obtain ⟨d, hd, hsink, hle⟩ :=
        h.followed k other hother hsource (List.not_mem_cons_of_ne_of_not_mem hne hk)
      exact ⟨d, hmem hd, hsink, hle⟩

end Search.Leaving

/-- **All links of a router are followed** before it is left. -/
theorem explore_leaving (hc : t.Closed) {here : Reached} {links : List LinkId}
    (hlinks : ∀ l ∈ links, t.leaves here.router l = true)
    (hsorted : links.Pairwise fun l k ↦ l.index < k.index) {s₁ : Search}
    (h : s.Leaving t source left here links) (heq : explore t here links s = .ok s₁) :
    s₁.Leaving t source left here [] := by
  induction links generalizing s with
  | nil =>
    cases heq
    exact h
  | cons l links ih =>
    obtain ⟨hl, hlinks⟩ := List.forall_mem_cons.1 hlinks
    obtain ⟨hbelow, hsorted⟩ := List.pairwise_cons.1 hsorted
    obtain ⟨link, hlink, -⟩ := Topology.leaves_iff.1 hl
    have hlt : link.sink.index < s.reached.size :=
      h.size_reached.symm ▸ hc link (Array.mem_of_getElem? hlink)
    obtain ⟨seen, hseen⟩ : ∃ seen, s.reached[link.sink.index]? = some seen :=
      ⟨_, Array.getElem?_eq_getElem hlt⟩
    rw [explore_cons hlink hseen] at heq
    cases seen with
    | true => exact ih hlinks hsorted (h.skip hlink hseen) heq
    | false => exact ih hlinks hsorted (h.reach hbelow hlink) heq

/-- The links that leave a router are listed in their order. -/
theorem sorted_outgoing (t : Topology α) (r : RouterId) :
    ((Id.range t.links.size).filter (t.leaves r)).Pairwise fun l k ↦ l.index < k.index := by
  have hrange : (Id.range t.links.size : List LinkId).Pairwise fun l k ↦ l.index < k.index :=
    List.pairwise_map.2 List.pairwise_lt_range
  exact hrange.filter _

/-- Leaving the router that is in front begins with all its links. -/
theorem Search.Ordered.leaving (h : s.Ordered t source left) (hlevel : Level s.waiting)
    (hsize : s.reached.size = t.routers.size) {here : Reached} {waiting : List Reached}
    (hwaiting : s.waiting = here :: waiting) :
    Search.Leaving t source left here ((Id.range t.links.size).filter (t.leaves here.router))
      { s with waiting } where
  size_reached := hsize
  ordered := by
    have hsame : ({ s with waiting := here :: waiting } : Search) = s := by rw [← hwaiting]
    exact hsame ▸ h
  level c hc d hd :=
    hlevel c (hwaiting ▸ List.mem_cons_of_mem here hc) d (hwaiting ▸ List.mem_cons_of_mem here hd)
  ahead c hc l _ :=
    hlevel c (hwaiting ▸ List.mem_cons_of_mem here hc) here (hwaiting ▸ List.mem_cons_self) l
  followed l link hl hsource hout := by
    refine absurd (List.mem_filter.2 ⟨Id.mem_range.2 ?_, ?_⟩) hout
    · exact (Array.getElem?_eq_some_iff.1 hl).1
    · exact Topology.leaves_iff.2 ⟨link, hl, hsource⟩

/-- And it ends with one more router that was left. -/
theorem Search.Leaving.ordered_append {here : Reached} (h : s.Leaving t source left here []) :
    s.Ordered t source (left ++ [here]) := by
  have happend : left ++ [here] ++ s.waiting = left ++ here :: s.waiting := by simp
  refine ⟨happend ▸ h.ordered.source_mem, happend ▸ h.ordered.marked, happend ▸ h.ordered.sorted,
    fun c hc l link hl hsource ↦ ?_⟩
  rw [happend]
  rcases List.mem_append.1 hc with hleft | hc
  · exact h.ordered.followed c hleft l link hl hsource
  · obtain rfl := List.mem_singleton.1 hc
    exact h.followed l link hl hsource List.not_mem_nil

/-- **A search that left some routers** goes on to the sink if there is a walk to it, and what it
finds does not come after the walk. -/
theorem search_least (hw : t.WellFormed) (hc : t.Closed) {walk : Route}
    (hwalk : t.Walk source walk sink) {fuel : Nat} {s' : LinkedSearch} (h : s.Follows t source s')
    (hordered : s.Ordered t source left) (hlevel : Level s.waiting)
    (hleft : ∀ c ∈ left, c.router ≠ sink) (hfuel : s.remaining ≤ fuel) :
    ∃ route, search t sink fuel s = .ok (some route) ∧ rank route ≤ rank walk := by
  induction fuel generalizing s s' left with
  | zero =>
    -- all routers were left, the sink among them
    have hnil : s.waiting = [] := List.eq_nil_of_length_eq_zero (by
      simp only [Search.remaining] at hfuel
      omega)
    obtain ⟨c, hc, hrouter, -⟩ := hordered.left_of_walk hwalk (by simp [hnil])
    exact absurd hrouter (hleft c hc)
  | succ fuel ih =>
    cases hwaiting : s.waiting with
    | nil =>
      obtain ⟨c, hc, hrouter, -⟩ := hordered.left_of_walk hwalk (by simp [hwaiting])
      exact absurd hrouter (hleft c hc)
    | cons here waiting =>
      by_cases hsink : here.router = sink
      · refine ⟨here.route, search_sink hwaiting hsink _, ?_⟩
        -- otherwise the sink would have been left before
        by_contra hlt
        have hfirst : ∀ c ∈ s.waiting, rank walk < rank c.route := by
          intro c hc
          have hsorted := (List.pairwise_append.1 hordered.sorted).2.1
          rw [hwaiting] at hc hsorted
          rcases List.mem_cons.1 hc with rfl | hc
          · exact not_le.1 hlt
          · exact (not_le.1 hlt).trans ((List.pairwise_cons.1 hsorted).1 c hc)
        obtain ⟨c, hc, hrouter, -⟩ := hordered.left_of_walk hwalk hfirst
        exact hleft c hc hrouter
      · obtain ⟨hmarked, hparents, hlt, hothers⟩ := h.leave hwaiting
        have hlinks := t.leaves_of_listed here.router
        obtain ⟨s₁, s₁', heq, -, hfollows, hremaining⟩ :=
          explore_follows hc hlinks hothers hmarked hparents
        have hleaving := explore_leaving hc hlinks (sorted_outgoing t here.router)
          (hordered.leaving hlevel h.size_reached hwaiting) heq
        have hfuel₁ : s₁.remaining ≤ fuel := by
          simp only [Search.remaining, hwaiting, List.length_cons] at hremaining hfuel ⊢
          omega
        have hleft₁ : ∀ c ∈ left ++ [here], c.router ≠ sink := by
          intro c hc
          rcases List.mem_append.1 hc with hc | hc
          · exact hleft c hc
          · exact List.mem_singleton.1 hc ▸ hsink
        rw [search_cons hwaiting hsink (hw.outgoing_eq here.router hlt) heq]
        exact ih hfollows hleaving.ordered_append hleaving.level hleft₁ hfuel₁

/-- A search starts with its source. -/
theorem ordered_start (t : Topology α) (source : RouterId) :
    (Search.start t source).Ordered t source [] where
  source_mem := List.mem_singleton_self _
  marked r hr := by
    refine ⟨_, List.mem_singleton_self _, Id.ext ?_⟩
    by_contra hne
    -- no other router has a mark
    rw [Search.start, Array.getElem?_setIfInBounds, if_neg hne] at hr
    simpa using (Array.getElem?_eq_some_iff.1 hr).2
  sorted := List.pairwise_singleton _ _
  followed _ hc := absurd hc List.not_mem_nil

theorem level_start (t : Topology α) (source : RouterId) :
    Level (Search.start t source).waiting := by
  intro c hc d hd l
  rw [List.mem_singleton.1 hc, List.mem_singleton.1 hd]
  exact rank_lt_concat _ l

/-- **Routing with the fewest hops** finds a route whenever a walk leads to the sink, and no walk
comes before this route. -/
theorem exists_route_le (hw : t.WellFormed) (hc : t.Closed)
    (hsource : source.index < t.routers.size)
    {walk : Route} (hwalk : t.Walk source walk sink) :
    ∃ found, route t source sink = .ok found ∧ rank found ≤ rank walk := by
  by_cases hne : source = sink
  · exact ⟨[], if_pos hne, rank_nil_le walk⟩
  · obtain ⟨found, heq, hle⟩ := search_least hw hc hwalk (follows_start hsource)
      (ordered_start t source) (level_start t source) (fun _ h ↦ absurd h List.not_mem_nil)
      (Nat.le_of_eq (remaining_start hsource))
    have hrouter : t.router source = .ok t.routers[source.index] :=
      Attempt.entry_eq_ok_iff.2 (Array.getElem?_eq_getElem hsource)
    refine ⟨found, ?_, hle⟩
    rw [route, if_neg hne, hrouter, Attempt.ok_bind, heq]
    rfl

/-- **The first among the shortest walks.** Routing with the fewest hops finds a route exactly if a
walk leads from the source to the sink. Every such walk is longer than the route, or it is as long
and it has the higher link where the two first differ. Walking back over parent links gives the same
route. -/
theorem route_firstWalk (ht : t.Built) (hc : t.Closed) (hsource : source.index < t.routers.size) :
    ((∃ found, route t source sink = .ok found) ↔ ∃ walk, t.Walk source walk sink) ∧
    ((∀ walk, ¬ t.Walk source walk sink) →
      ∃ why, route t source sink =
        Attempt.fail (.routingFailed .fewestHops source sink why)) ∧
    routeLinked t source sink = (route t source sink).map some ∧
    ∀ found, route t source sink = .ok found → t.Walk source found sink ∧
      ∀ walk, t.Walk source walk sink → found.length < walk.length ∨
        found.length = walk.length ∧ (found = walk ∨
          List.Lex (· < ·) (found.map (·.index)) (walk.map (·.index))) := by
  have hw := ht.wellFormed
  have hleast : ∀ {walk}, t.Walk source walk sink →
      ∃ found, route t source sink = .ok found ∧ rank found ≤ rank walk :=
    exists_route_le hw hc hsource
  obtain ⟨found, hpath, hfound, hlinked⟩ | ⟨why, hfail, hlinked⟩ := route_cases hw hc hsource sink
  · refine ⟨iff_of_true ⟨found, hfound⟩ ⟨found, hpath.walk⟩, fun hnone ↦ ?_, ?_, ?_⟩
    · exact absurd hpath.walk (hnone found)
    · rw [hfound, hlinked]
      rfl
    · intro found' hfound'
      obtain rfl := Except.ok.inj (hfound.symm.trans hfound')
      refine ⟨hpath.walk, fun walk hwalk ↦ rank_le_iff.1 ?_⟩
      obtain ⟨_, hfound', hle⟩ := hleast hwalk
      rwa [← Except.ok.inj (hfound.symm.trans hfound')] at hle
  · have hnone : ∀ found, route t source sink ≠ .ok found := by
      intro found hfound
      rw [hfail] at hfound
      cases hfound
    refine ⟨⟨fun ⟨found, hfound⟩ ↦ absurd hfound (hnone found), fun ⟨walk, hwalk⟩ ↦ ?_⟩,
      fun _ ↦ ⟨why, hfail⟩, ?_, fun found hfound ↦ absurd hfound (hnone found)⟩
    · obtain ⟨found, hfound, -⟩ := hleast hwalk
      exact ⟨found, hfound⟩
    · rw [hfail, hlinked]
      rfl

/-- Around a diamond the route takes the side with the lower first link. -/
theorem route_firstWalk_diamond :
    (Diamond.topology.Built ∧ Diamond.topology.Closed ∧ 0 < Diamond.topology.routers.size) ∧
      route Diamond.topology ⟨0⟩ ⟨3⟩ = .ok [⟨1⟩, ⟨5⟩] ∧
      ∀ walk, Diamond.topology.Walk ⟨0⟩ walk ⟨3⟩ → 2 < walk.length ∨
        2 = walk.length ∧ ([⟨1⟩, ⟨5⟩] = walk ∨
          List.Lex (· < ·) [1, 5] (walk.map (·.index))) := by
  have hroute : route Diamond.topology ⟨0⟩ ⟨3⟩ = .ok [⟨1⟩, ⟨5⟩] := by decide +kernel
  obtain ⟨-, -, -, hfirst⟩ := @route_firstWalk _ _ ⟨0⟩ ⟨3⟩ Diamond.built_topology
    Diamond.closed_topology (by decide)
  exact ⟨⟨Diamond.built_topology, Diamond.closed_topology, by decide⟩, hroute,
    (hfirst _ hroute).2⟩

end FewestHops

end NetOnChip
