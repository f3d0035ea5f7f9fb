import NetOnChip.Proofs.Routing.Marks
import NetOnChip.Routing.FewestHops

/-!
# Routes with the fewest hops are paths

In a well-formed and closed topology a breadth-first search never looks past the end of a table, and
the route that it may find leads from the source to the sink without visiting a router twice
(`route_cases`). What the search keeps is that every waiting router was reached over routers that
are all marked, so that it only ever goes on to routers which a path has not visited
(`Search.Follows`).

The same invariant says two more things about the search.

* It could be given more steps than there are routers, and nothing would change (`routeWithin_eq`):
  at every step one router is left, and it was reached only once.
* It need not carry the routes. A search that keeps one parent link for every router, and walks
  these links back from the sink in the end, does the same step by step, and it never comes to a
  router whose parent is missing (`route_cases`).
-/

namespace NetOnChip

namespace FewestHops

variable {α : Type} {t : Topology α} {source sink : RouterId}

/-! ### Searching with parent links -/

/-- The state of a search that keeps parent links. -/
structure LinkedSearch where
  /-- For every router whether it was reached. -/
  reached : Array Bool
  /-- For every router but the source the link by which it was reached. -/
  parents : Array (Option LinkId)
  /-- The reached routers that were not left yet, the one reached first in front. -/
  waiting : List RouterId

/-- Follows the links that leave a router, one after the other. -/
def exploreLinked (t : Topology α) : List LinkId → LinkedSearch → Attempt α LinkedSearch
  | [], s => .ok s
  | l :: links, s => do
    let next := (← t.link l).sink
    if ← Attempt.entry s.reached next then
      exploreLinked t links s
    else
      exploreLinked t links
        { reached := s.reached.setIfInBounds next.index true
          parents := s.parents.setIfInBounds next.index (some l)
          waiting := s.waiting ++ [next] }

/-- Leaves one waiting router after the other until the sink is in front, and answers the parents
then. -/
def searchLinked (t : Topology α) (sink : RouterId) :
    Nat → LinkedSearch → Attempt α (Option (Array (Option LinkId)))
  | fuel, s =>
    match s.waiting with
    | [] => .ok none
    | here :: waiting =>
      if here = sink then
        .ok (some s.parents)
      else
        match fuel with
        | 0 => Attempt.crash .stepsExhausted
        | fuel + 1 => do
          let links ← t.outgoing here
          let s ← exploreLinked t links { s with waiting }
          searchLinked t sink fuel s

/-- A search that has reached nothing but its source. -/
def LinkedSearch.start (t : Topology α) (source : RouterId) : LinkedSearch where
  reached := (Array.replicate t.routers.size false).setIfInBounds source.index true
  parents := Array.replicate t.routers.size none
  waiting := [source]

/-- The route that the parent links lead back. It is missing if one of them is. -/
def routeLinked (t : Topology α) (source sink : RouterId) : Attempt α (Option Route) :=
  if source = sink then
    .ok (some [])
  else do
    let _ ← t.router source
    match ← searchLinked t sink t.routers.size (.start t source) with
    | some parents => return t.retrace parents source t.routers.size sink []
    | none => Attempt.fail (.routingFailed .fewestHops source sink .unreachable)

/-- A route that is found within a number of steps. -/
def routeWithin (fuel : Nat) (t : Topology α) (source sink : RouterId) : Attempt α Route :=
  if source = sink then
    .ok []
  else do
    let _ ← t.router source
    match ← search t sink fuel (.start t source) with
    | some route => return route
    | none => Attempt.fail (.routingFailed .fewestHops source sink .unreachable)

/-! ### Two searches side by side -/

/-- A search with parent links is in the state of a search that carries its routes. -/
structure Search.Follows (t : Topology α) (source : RouterId) (s : Search) (s' : LinkedSearch) :
    Prop where
  /-- The same routers were reached. -/
  reached_eq : s'.reached = s.reached
  /-- The same routers wait. -/
  waiting_eq : s'.waiting = s.waiting.map (·.router)
  /-- There is one mark for every router. -/
  size_reached : s.reached.size = t.routers.size
  /-- There is room for the parent of every router. -/
  size_parents : s'.parents.size = t.routers.size
  /-- The waiting routers were reached over marked routers. -/
  marked : ∀ c ∈ s.waiting, t.Marked source s.reached c.trail c.router
  /-- The parent links lead back over the same routers. -/
  onTrack : ∀ c ∈ s.waiting, t.OnTrack s'.parents c.trail.reverse

/-- How many routers may still be left. -/
def Search.remaining (s : Search) : Nat :=
  s.waiting.length + s.reached.count false

/-- A router that was not reached before waits from now on. -/
theorem explore_cons {here : Reached} {l : LinkId} {link : Link α} {links : List LinkId}
    {s : Search} {seen : Bool} (hl : t.links[l.index]? = some link)
    (hseen : s.reached[link.sink.index]? = some seen) :
    explore t here (l :: links) s =
      explore t here links
        (if seen then s else
          { reached := s.reached.setIfInBounds link.sink.index true
            waiting := s.waiting ++ [⟨link.sink, l :: here.trail⟩] }) := by
  have hlink : t.link l = .ok link := Attempt.entry_eq_ok_iff.2 hl
  have hentry : (Attempt.entry s.reached link.sink : Attempt α Bool) = .ok seen :=
    Attempt.entry_eq_ok_iff.2 hseen
  rw [explore, hlink, Attempt.ok_bind]
  show (Attempt.entry s.reached link.sink >>= _) = _
  rw [hentry]
  cases seen <;> rfl

theorem exploreLinked_cons {l : LinkId} {link : Link α} {links : List LinkId}
    {s : LinkedSearch} {seen : Bool} (hl : t.links[l.index]? = some link)
    (hseen : s.reached[link.sink.index]? = some seen) :
    exploreLinked t (l :: links) s =
      exploreLinked t links
        (if seen then s else
          { reached := s.reached.setIfInBounds link.sink.index true
            parents := s.parents.setIfInBounds link.sink.index (some l)
            waiting := s.waiting ++ [link.sink] }) := by
  have hlink : t.link l = .ok link := Attempt.entry_eq_ok_iff.2 hl
  have hentry : (Attempt.entry s.reached link.sink : Attempt α Bool) = .ok seen :=
    Attempt.entry_eq_ok_iff.2 hseen
  rw [exploreLinked, hlink, Attempt.ok_bind]
  show (Attempt.entry s.reached link.sink >>= _) = _
  rw [hentry]
  cases seen <;> rfl

theorem explore_follows (hc : t.Closed) {here : Reached} {links : List LinkId}
    (hlinks : ∀ l ∈ links, t.leaves here.router l = true) {s : Search} {s' : LinkedSearch}
    (h : s.Follows t source s') (hhere : t.Marked source s.reached here.trail here.router)
    (hparents : t.OnTrack s'.parents here.trail.reverse) :
    ∃ s₁ s₁', explore t here links s = .ok s₁ ∧ exploreLinked t links s' = .ok s₁' ∧
      s₁.Follows t source s₁' ∧ s₁.remaining = s.remaining := by
  induction links generalizing s s' with
  | nil => exact ⟨s, s', rfl, rfl, h, rfl⟩
  | cons l links ih =>
    obtain ⟨hl, hlinks⟩ := List.forall_mem_cons.1 hlinks
    obtain ⟨link, hlink, hsource⟩ := Topology.leaves_iff.1 hl
    have hlt : link.sink.index < t.routers.size := hc link (Array.mem_of_getElem? hlink)
    obtain ⟨seen, hseen⟩ : ∃ seen, s.reached[link.sink.index]? = some seen :=
      ⟨_, Array.getElem?_eq_getElem (h.size_reached.symm ▸ hlt)⟩
    rw [explore_cons hlink hseen, exploreLinked_cons hlink (h.reached_eq ▸ hseen)]
    cases seen with
    | true => exact ih hlinks h hhere hparents
    | false =>
      have hnew := hhere.notMem_stops hseen
      have hfollows : Search.Follows t source
          { reached := s.reached.setIfInBounds link.sink.index true
            waiting := s.waiting ++ [⟨link.sink, l :: here.trail⟩] }
          { reached := s'.reached.setIfInBounds link.sink.index true
            parents := s'.parents.setIfInBounds link.sink.index (some l)
            waiting := s'.waiting ++ [link.sink] } := by
        refine ⟨by rw [h.reached_eq], by simp [h.waiting_eq], by simp [h.size_reached],
          by simp [h.size_parents], fun c hmem ↦ ?_, fun c hmem ↦ ?_⟩
        · rcases List.mem_append.1 hmem with hold | hmem
          · exact (h.marked c hold).set _
          · obtain rfl := List.mem_singleton.1 hmem
            exact hhere.extend hlink hsource hseen
        · rcases List.mem_append.1 hmem with hold | hmem
          · have hmarked := h.marked c hold
            exact (h.onTrack c hold).set hmarked.path.walk (hmarked.notMem_stops hseen) _
          · obtain rfl := List.mem_singleton.1 hmem
            rw [List.reverse_cons]
            exact hparents.concat hhere.path.walk hlink hnew (h.size_parents.symm ▸ hlt)
      obtain ⟨s₁, s₁', heq, heq', hfollows₁, hremaining⟩ :=
        ih hlinks hfollows (hhere.set _) (hparents.set hhere.path.walk hnew _)
      refine ⟨s₁, s₁', heq, heq', hfollows₁, hremaining.trans ?_⟩
      -- the router waits from now on, but it is no longer without a mark
      have hcount := count_false_setIfInBounds hseen
      simp only [Search.remaining, List.length_append, List.length_singleton]
      omega

/-- A search without waiting routers finds nothing. -/
theorem search_nil {s : Search} (h : s.waiting = []) (fuel : Nat) :
    search t sink fuel s = .ok none := by
  rw [search, h]

/-- A search ends when the sink is in front. -/
theorem search_sink {s : Search} {here : Reached} {waiting : List Reached}
    (h : s.waiting = here :: waiting) (hsink : here.router = sink) (fuel : Nat) :
    search t sink fuel s = .ok (some here.trail.reverse) := by
  rw [search, h]
  exact if_pos hsink

/-- A search leaves the router that is in front. -/
theorem search_cons {s s₁ : Search} {here : Reached} {waiting : List Reached}
    {links : List LinkId} (h : s.waiting = here :: waiting) (hsink : here.router ≠ sink)
    (hlinks : t.outgoing here.router = .ok links)
    (hexplore : explore t here links { s with waiting } = .ok s₁) (fuel : Nat) :
    search t sink (fuel + 1) s = search t sink fuel s₁ := by
  rw [search, h]
  show (if here.router = sink then _ else t.outgoing here.router >>= _) = _
  rw [if_neg hsink, hlinks, Attempt.ok_bind, hexplore, Attempt.ok_bind]

theorem searchLinked_nil {s : LinkedSearch} (h : s.waiting = []) (fuel : Nat) :
    searchLinked t sink fuel s = .ok none := by
  rw [searchLinked, h]

theorem searchLinked_sink {s : LinkedSearch} {waiting : List RouterId}
    (h : s.waiting = sink :: waiting) (fuel : Nat) :
    searchLinked t sink fuel s = .ok (some s.parents) := by
  rw [searchLinked, h]
  exact if_pos rfl

theorem searchLinked_cons {s s₁ : LinkedSearch} {here : RouterId} {waiting : List RouterId}
    {links : List LinkId} (h : s.waiting = here :: waiting) (hsink : here ≠ sink)
    (hlinks : t.outgoing here = .ok links)
    (hexplore : exploreLinked t links { s with waiting } = .ok s₁) (fuel : Nat) :
    searchLinked t sink (fuel + 1) s = searchLinked t sink fuel s₁ := by
  rw [searchLinked, h]
  show (if here = sink then _ else t.outgoing here >>= _) = _
  rw [if_neg hsink, hlinks, Attempt.ok_bind, hexplore, Attempt.ok_bind]

/-- The router in front is taken out before its links are followed. -/
theorem Search.Follows.leave {s : Search} {s' : LinkedSearch} (h : s.Follows t source s')
    {here : Reached} {waiting : List Reached} (hwaiting : s.waiting = here :: waiting) :
    t.Marked source s.reached here.trail here.router ∧
      t.OnTrack s'.parents here.trail.reverse ∧ here.router.index < t.routers.size ∧
      Search.Follows t source { s with waiting }
        { s' with waiting := waiting.map (·.router) } := by
  have hmem : here ∈ s.waiting := hwaiting ▸ List.mem_cons_self
  have hmarked := h.marked here hmem
  refine ⟨hmarked, h.onTrack here hmem, ?_, h.reached_eq, rfl, h.size_reached, h.size_parents,
    fun c hc ↦ ?_, fun c hc ↦ ?_⟩
  · exact h.size_reached ▸ (Array.getElem?_eq_some_iff.1 hmarked.here_marked).1
  · exact h.marked c (hwaiting ▸ List.mem_cons_of_mem here hc)
  · exact h.onTrack c (hwaiting ▸ List.mem_cons_of_mem here hc)

/-- **Both searches side by side.** Neither looks past the end of a table. They find a path and the
parent links that lead back over it, or neither finds anything; and more steps make no
difference. -/
theorem search_follows (hw : t.WellFormed) (hc : t.Closed) (sink : RouterId) {fuel : Nat}
    {s : Search}
    {s' : LinkedSearch} (h : s.Follows t source s') (hfuel : s.remaining ≤ fuel) :
    (∀ more, search t sink (more + fuel) s = search t sink fuel s) ∧
      (search t sink fuel s = .ok none ∧ searchLinked t sink fuel s' = .ok none ∨
        ∃ route parents, search t sink fuel s = .ok (some route) ∧
          searchLinked t sink fuel s' = .ok (some parents) ∧
          t.Path source route sink ∧ t.OnTrack parents route ∧ sink.index < t.routers.size) := by
  induction fuel generalizing s s' with
  | zero =>
    have hnil : s.waiting = [] := List.eq_nil_of_length_eq_zero (by
      simp only [Search.remaining] at hfuel
      omega)
    have hnil' : s'.waiting = [] := by rw [h.waiting_eq, hnil, List.map_nil]
    exact ⟨fun more ↦ (search_nil hnil more).trans (search_nil hnil 0).symm,
      .inl ⟨search_nil hnil 0, searchLinked_nil hnil' 0⟩⟩
  | succ fuel ih =>
    cases hwaiting : s.waiting with
    | nil =>
      have hwaiting' : s'.waiting = [] := by rw [h.waiting_eq, hwaiting, List.map_nil]
      refine ⟨fun more ↦ ?_, .inl ⟨search_nil hwaiting _, searchLinked_nil hwaiting' _⟩⟩
      rw [search_nil hwaiting, search_nil hwaiting]
    | cons here waiting =>
      obtain ⟨hmarked, hparents, hlt, hothers⟩ := h.leave hwaiting
      have hwaiting' : s'.waiting = here.router :: waiting.map (·.router) := by
        rw [h.waiting_eq, hwaiting]
        rfl
      by_cases hsink : here.router = sink
      · subst hsink
        refine ⟨fun more ↦ ?_, .inr ⟨_, _, search_sink hwaiting rfl _,
          searchLinked_sink hwaiting' _, hmarked.path, hparents, hlt⟩⟩
        rw [search_sink hwaiting rfl, search_sink hwaiting rfl]
      · obtain ⟨s₁, s₁', heq, heq', hfollows, hremaining⟩ :=
          explore_follows hc (t.leaves_of_listed here.router) hothers hmarked hparents
        have hfuel₁ : s₁.remaining ≤ fuel := by
          simp only [Search.remaining, hwaiting, List.length_cons] at hremaining hfuel ⊢
          omega
        have hout := hw.outgoing_eq here.router hlt
        obtain ⟨hmore, hcases⟩ := ih hfollows hfuel₁
        rw [search_cons hwaiting hsink hout heq, searchLinked_cons hwaiting' hsink hout heq']
        exact ⟨fun more ↦ (search_cons hwaiting hsink hout heq (more + fuel)).trans (hmore more),
          hcases⟩

/-! ### Routes -/

theorem follows_start (hsource : source.index < t.routers.size) :
    (Search.start t source).Follows t source (.start t source) where
  reached_eq := rfl
  waiting_eq := rfl
  size_reached := by simp [Search.start]
  size_parents := by simp [LinkedSearch.start]
  marked := List.forall_mem_singleton.2 (.start (by simp [Search.start, hsource]))
  onTrack := List.forall_mem_singleton.2 fun _ h ↦ absurd h List.not_mem_nil

theorem remaining_start (hsource : source.index < t.routers.size) :
    (Search.start t source).remaining = t.routers.size := by
  have hnew : (Array.replicate t.routers.size false)[source.index]? = some false := by
    simp [hsource]
  have hcount := count_false_setIfInBounds hnew
  simp only [Search.remaining, Search.start, List.length_singleton]
  rw [Nat.add_comm, hcount, Array.count_replicate_self]

/-- **More steps than there are routers** make no difference. -/
theorem routeWithin_eq (hw : t.WellFormed) (hc : t.Closed) (hsource : source.index < t.routers.size)
    {fuel : Nat} (hfuel : t.routers.size ≤ fuel) :
    routeWithin fuel t source sink = route t source sink := by
  have hsearch := (search_follows hw hc sink (follows_start hsource)
    (Nat.le_of_eq (remaining_start hsource))).1 (fuel - t.routers.size)
  rw [Nat.sub_add_cancel hfuel] at hsearch
  show _ = routeWithin t.routers.size t source sink
  rw [routeWithin, routeWithin, hsearch]

/-- **Routing with the fewest hops** ends with a path from the source to the sink, or there is no
route; and with parent links it ends with the same. -/
theorem route_cases (hw : t.WellFormed) (hc : t.Closed) (hsource : source.index < t.routers.size)
    (sink : RouterId) :
    (∃ found, t.Path source found sink ∧ route t source sink = .ok found ∧
      routeLinked t source sink = .ok (some found)) ∨
    ∃ why, route t source sink =
        .error (.error (.routingFailed .fewestHops source sink why)) ∧
      routeLinked t source sink =
        .error (.error (.routingFailed .fewestHops source sink why)) := by
  by_cases hne : source = sink
  · subst hne
    exact .inl ⟨[], .nil source, if_pos rfl, if_pos rfl⟩
  · have hrouter : t.router source = .ok t.routers[source.index] :=
      Attempt.entry_eq_ok_iff.2 (Array.getElem?_eq_getElem hsource)
    rw [route, routeLinked, if_neg hne, if_neg hne, hrouter, Attempt.ok_bind, Attempt.ok_bind]
    obtain ⟨-, ⟨heq, heq'⟩ | ⟨found, parents, heq, heq', hpath, htrack, hsink⟩⟩ :=
      search_follows hw hc sink (follows_start hsource) (Nat.le_of_eq (remaining_start hsource))
    · rw [heq, heq']
      exact .inr ⟨.unreachable, rfl, rfl⟩
    · have hretrace := Topology.retrace_eq hpath htrack (Nat.le_of_lt (hpath.length_lt hw hsink)) []
      rw [List.append_nil] at hretrace
      rw [heq, heq']
      exact .inl ⟨found, hpath, rfl, congrArg Except.ok hretrace⟩

/-- **Routing with the fewest hops** ends with a walk from the source to the sink or with an
error. -/
theorem route_ensures (hw : t.WellFormed) (hc : t.Closed)
    (hsource : source.index < t.routers.size) :
    (route t source sink).Ensures fun route ↦ t.Walk source route sink := by
  rcases route_cases hw hc hsource sink with ⟨_, hpath, heq, _⟩ | ⟨_, heq, _⟩
  · rw [heq]
    exact hpath.walk
  · rw [heq]
    trivial

end FewestHops

end NetOnChip
