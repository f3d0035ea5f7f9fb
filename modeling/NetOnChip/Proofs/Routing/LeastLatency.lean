import Mathlib.Data.List.Perm.Basic
import NetOnChip.Proofs.Routing.Marks
import NetOnChip.Routing.LeastLatency

/-!
# Routes with the least latency are paths

As for the search with the fewest hops: in a well-formed and closed topology nothing is looked up
past the end of a table, the route that may be found is a path from the source to the sink
(`route_cases`), and more steps than there are routers make no difference (`routeWithin_eq`). What
the search keeps is that every waiting candidate was reached over settled routers, and that each
router waits once (`Search.Follows`). A settled router is never entered again, so it does not matter
whether a way to it that is found later would be shorter. No law of arithmetic is used: latencies
may be negative, infinite or in no order.

The search may also keep the least latency and one parent link for every router, and a priority
queue of bare candidates; that finds the same routes, and no parent is ever missing when they are
walked back (`route_cases`). Of the queue it is assumed that taking out an entry takes the one that
precedes all others, and that adding an entry for a router replaces the one which it has.
-/

namespace NetOnChip

namespace LeastLatency

variable {α : Type} [Scalar α] {t : Topology α} {source sink : RouterId}

/-! ### Waiting candidates -/

/-- A candidate without its trail. -/
def Candidate.bare (c : Candidate α) : Candidate α :=
  { c with trail := [] }

/-- The least latency known for a router: that of its candidate, if it has one. -/
def bestOf (waiting : List (Candidate α)) (r : RouterId) : α :=
  match waiting.find? (·.router = r) with
  | some c => c.latency
  | none => Scalar.infinity

/-- Adds a candidate, or puts it in the place of the one that its router has. -/
def push (c : Candidate α) : List (Candidate α) → List (Candidate α)
  | [] => [c]
  | d :: waiting => if d.router = c.router then c :: waiting else d :: push c waiting

/-- A candidate is only added if it is better than what is known for its router. -/
theorem offer_eq (c : Candidate α) (waiting : List (Candidate α)) :
    offer c waiting =
      if c.latency < bestOf waiting c.router then push c waiting else waiting := by
  induction waiting with
  | nil => rfl
  | cons d waiting ih =>
    rw [offer, push, bestOf, List.find?_cons]
    by_cases hd : d.router = c.router
    · simp only [hd, if_pos, decide_true]
    · have hbest : bestOf waiting c.router =
          match waiting.find? (·.router = c.router) with
          | some c => c.latency
          | none => Scalar.infinity := rfl
      simp only [hd, if_false, decide_false, ih, ← hbest]
      split <;> rfl

omit [Scalar α] in
theorem map_bare_push (c : Candidate α) (waiting : List (Candidate α)) :
    (push c waiting).map (·.bare) = push c.bare (waiting.map (·.bare)) := by
  induction waiting with
  | nil => rfl
  | cons d waiting ih =>
    rw [push, List.map_cons, push]
    have hsame : (d.bare.router = c.bare.router) = (d.router = c.router) := rfl
    simp only [hsame]
    split
    · rfl
    · rw [List.map_cons, ih]

omit [Scalar α] in
theorem mem_map_router_push {c : Candidate α} {waiting : List (Candidate α)} {r : RouterId} :
    r ∈ (push c waiting).map (·.router) ↔ r = c.router ∨ r ∈ waiting.map (·.router) := by
  induction waiting with
  | nil => simp [push]
  | cons d waiting ih =>
    rw [push]
    split
    · rename_i hd
      simp [hd]
    · rw [List.map_cons, List.mem_cons, ih, List.map_cons, List.mem_cons]
      exact or_left_comm

omit [Scalar α] in
/-- Every router still has one candidate at most. -/
theorem nodup_push (c : Candidate α) {waiting : List (Candidate α)}
    (h : (waiting.map (·.router)).Nodup) : ((push c waiting).map (·.router)).Nodup := by
  induction waiting with
  | nil => exact List.nodup_singleton _
  | cons d waiting ih =>
    obtain ⟨hd, hwaiting⟩ := List.nodup_cons.1 h
    rw [push]
    split
    · rename_i hdc
      have hc : c.router ∉ waiting.map (·.router) := by rwa [← hdc]
      exact List.nodup_cons.2 ⟨hc, hwaiting⟩
    · rename_i hdc
      refine List.nodup_cons.2 ⟨fun hmem ↦ ?_, ih hwaiting⟩
      exact (mem_map_router_push.1 hmem).elim hdc hd

omit [Scalar α] in
/-- The candidates of other routers are those from before. -/
theorem mem_of_mem_push {c d : Candidate α} {waiting : List (Candidate α)}
    (h : (waiting.map (·.router)).Nodup) (hd : d ∈ push c waiting) :
    d = c ∨ d ∈ waiting ∧ d.router ≠ c.router := by
  induction waiting with
  | nil => exact .inl (List.mem_singleton.1 hd)
  | cons e waiting ih =>
    obtain ⟨he, hwaiting⟩ := List.nodup_cons.1 h
    rw [push] at hd
    split at hd
    · rename_i hec
      rcases List.mem_cons.1 hd with rfl | hd
      · exact .inl rfl
      · refine .inr ⟨List.mem_cons_of_mem e hd, fun hdc ↦ he ?_⟩
        exact List.mem_map.2 ⟨d, hd, hdc.trans hec.symm⟩
    · rename_i hec
      rcases List.mem_cons.1 hd with rfl | hd
      · exact .inr ⟨List.mem_cons_self, hec⟩
      · exact (ih hwaiting hd).imp_right fun ⟨hmem, hne⟩ ↦ ⟨List.mem_cons_of_mem e hmem, hne⟩

theorem bestOf_push (c : Candidate α) (waiting : List (Candidate α)) (r : RouterId) :
    bestOf (push c waiting) r = if c.router = r then c.latency else bestOf waiting r := by
  induction waiting with
  | nil =>
    rw [push, bestOf, bestOf, List.find?_cons]
    by_cases hr : c.router = r <;> simp [hr]
  | cons d waiting ih =>
    simp only [bestOf] at ih ⊢
    rw [push]
    by_cases hdc : d.router = c.router
    · rw [if_pos hdc, List.find?_cons, List.find?_cons, hdc]
      by_cases hr : c.router = r <;> simp [hr]
    · rw [if_neg hdc, List.find?_cons, List.find?_cons]
      by_cases hr : d.router = r
      · have hcr : c.router ≠ r := fun e ↦ hdc (hr.trans e.symm)
        simp [hr, hcr]
      · simpa [hr] using ih

/-! ### Taking out the next candidate -/

/-- Only one candidate is taken out. -/
theorem takeNext_perm {waiting others : List (Candidate α)} {c : Candidate α}
    (h : takeNext waiting = some (c, others)) : waiting.Perm (c :: others) := by
  induction waiting generalizing c others with
  | nil => cases h
  | cons d waiting ih =>
    rw [takeNext] at h
    split at h
    · rename_i hnone
      cases h
      cases waiting with
      | nil => exact .refl _
      | cons e waiting =>
        rw [takeNext] at hnone
        split at hnone
        · cases hnone
        · split at hnone <;> cases hnone
    · rename_i e rest he
      split at h
      · cases h
        exact ((ih he).cons d).trans (.swap ..)
      · cases h
        exact .refl _

theorem takeNext_eq_none_iff {waiting : List (Candidate α)} :
    takeNext waiting = none ↔ waiting = [] := by
  constructor
  · intro h
    cases waiting with
    | nil => rfl
    | cons d waiting =>
      rw [takeNext] at h
      split at h
      · cases h
      · split at h <;> cases h
  · rintro rfl
    rfl

/-- Which candidate is next does not depend on the trails. -/
theorem takeNext_map_bare (waiting : List (Candidate α)) :
    takeNext (waiting.map (·.bare)) =
      (takeNext waiting).map fun (c, others) ↦ (c.bare, others.map (·.bare)) := by
  induction waiting with
  | nil => rfl
  | cons d waiting ih =>
    rw [List.map_cons, takeNext, takeNext, ih]
    cases takeNext waiting with
    | none => rfl
    | some next =>
      obtain ⟨c, others⟩ := next
      have hsame : c.bare.precedes d.bare = c.precedes d := rfl
      simp only [Option.map_some, hsame]
      split <;> rfl

/-- What is known for a router that has a candidate. -/
theorem bestOf_of_mem {waiting : List (Candidate α)} (hnodup : (waiting.map (·.router)).Nodup)
    {c : Candidate α} (hc : c ∈ waiting) : bestOf waiting c.router = c.latency := by
  induction waiting with
  | nil => exact absurd hc List.not_mem_nil
  | cons d waiting ih =>
    obtain ⟨hd, hwaiting⟩ := List.nodup_cons.1 hnodup
    rw [bestOf, List.find?_cons]
    rcases List.mem_cons.1 hc with rfl | hc
    · rw [decide_eq_true rfl]
    · have hne : d.router ≠ c.router := fun e ↦ hd (List.mem_map.2 ⟨c, hc, e.symm⟩)
      rw [decide_eq_false hne]
      exact ih hwaiting hc

/-- What is known for the other routers does not change. -/
theorem bestOf_of_takeNext {waiting others : List (Candidate α)} {c : Candidate α}
    (hnodup : (waiting.map (·.router)).Nodup) (h : takeNext waiting = some (c, others))
    {r : RouterId} (hr : c.router ≠ r) : bestOf others r = bestOf waiting r := by
  have hperm := takeNext_perm h
  have hothers : (others.map (·.router)).Nodup :=
    (List.nodup_cons.1 ((hperm.map (·.router)).nodup_iff.1 hnodup)).2
  by_cases hmem : r ∈ others.map (·.router)
  · obtain ⟨d, hd, rfl⟩ := List.mem_map.1 hmem
    rw [bestOf_of_mem hothers hd,
      bestOf_of_mem hnodup (hperm.mem_iff.2 (List.mem_cons_of_mem c hd))]
  · have hnone : ∀ d ∈ others, ¬ d.router = r := fun d hd e ↦ hmem (List.mem_map.2 ⟨d, hd, e⟩)
    have hnone' : ∀ d ∈ waiting, ¬ d.router = r := by
      intro d hd
      rcases List.mem_cons.1 (hperm.mem_iff.1 hd) with rfl | hd
      · exact hr
      · exact hnone d hd
    rw [bestOf, bestOf, List.find?_eq_none.2 (by simpa using hnone),
      List.find?_eq_none.2 (by simpa using hnone')]

/-! ### Searching with parent links -/

/-- The state of a search that keeps parent links. -/
structure LinkedSearch (α : Type) where
  /-- For every router whether it was settled. -/
  settled : Array Bool
  /-- For every router the least latency known for it. -/
  best : Array α
  /-- For every router but the source the link of the best route found so far. -/
  parents : Array (Option LinkId)
  /-- The bare candidates for routers that were reached and not settled. -/
  queue : List (Candidate α)

/-- Follows the links that leave a router that was just settled, one after the other. -/
def exploreLinked (t : Topology α) (latency : α) :
    List LinkId → LinkedSearch α → Attempt α (LinkedSearch α)
  | [], s => .ok s
  | l :: links, s => do
    let link ← t.link l
    if ← Attempt.entry s.settled link.sink then
      exploreLinked t latency links s
    else
      let next ← t.router link.sink
      let tentative := latency + link.latency + next.latency
      if tentative < (← Attempt.entry s.best link.sink) then
        exploreLinked t latency links
          { s with
            best := s.best.setIfInBounds link.sink.index tentative
            parents := s.parents.setIfInBounds link.sink.index (some l)
            queue := push ⟨link.sink, tentative, []⟩ s.queue }
      else
        exploreLinked t latency links s

/-- Settles one waiting router after the other until the sink is next, and answers the parents
then. -/
def searchLinked (t : Topology α) (sink : RouterId) :
    Nat → LinkedSearch α → Attempt α (Option (Array (Option LinkId)))
  | fuel, s =>
    match takeNext s.queue with
    | none => .ok none
    | some (here, queue) =>
      if here.router = sink then
        .ok (some s.parents)
      else
        match fuel with
        | 0 => Attempt.crash .stepsExhausted
        | fuel + 1 => do
          let links ← t.outgoing here.router
          let s ← exploreLinked t here.latency links
            { s with settled := s.settled.setIfInBounds here.router.index true, queue }
          searchLinked t sink fuel s

/-- A search in which only the source waits. -/
def LinkedSearch.start (t : Topology α) (source : RouterId) : LinkedSearch α where
  settled := Array.replicate t.routers.size false
  best := (Array.replicate t.routers.size Scalar.infinity).setIfInBounds source.index 0
  parents := Array.replicate t.routers.size none
  queue := [⟨source, 0, []⟩]

/-- The route that the parent links lead back. It is missing if one of them is. -/
def routeLinked (t : Topology α) (source sink : RouterId) : Attempt α (Option Route) :=
  if source = sink then
    .ok (some [])
  else do
    let _ ← t.router source
    match ← searchLinked t sink t.routers.size (.start t source) with
    | some parents => return t.retrace parents source t.routers.size sink []
    | none => Attempt.fail (.routingFailed .leastLatency source sink .unreachable)

/-- A route that is found within a number of steps. -/
def routeWithin (fuel : Nat) (t : Topology α) (source sink : RouterId) : Attempt α Route :=
  if source = sink then
    .ok []
  else do
    let _ ← t.router source
    match ← search t sink fuel (.start t source) with
    | some route => return route
    | none => Attempt.fail (.routingFailed .leastLatency source sink .unreachable)

/-! ### Two searches side by side -/

/-- A search with parent links is in the state of a search that carries its routes. -/
structure Search.Follows (t : Topology α) (source : RouterId) (s : Search α)
    (s' : LinkedSearch α) : Prop where
  /-- The same routers are settled. -/
  settled_eq : s'.settled = s.settled
  /-- The same candidates wait. -/
  queue_eq : s'.queue = s.waiting.map (·.bare)
  /-- For a router that is not settled, the latency of its candidate is the least one known. -/
  best_eq : ∀ r : RouterId, s.settled[r.index]? = some false →
    s'.best[r.index]? = some (bestOf s.waiting r)
  /-- There is one mark for every router. -/
  size_settled : s.settled.size = t.routers.size
  /-- There is a least latency for every router. -/
  size_best : s'.best.size = t.routers.size
  /-- There is room for the parent of every router. -/
  size_parents : s'.parents.size = t.routers.size
  /-- Every router waits once at most. -/
  nodup : (s.waiting.map (·.router)).Nodup
  /-- The waiting routers are not settled. -/
  unsettled : ∀ c ∈ s.waiting, s.settled[c.router.index]? = some false
  /-- They were reached by paths. -/
  path : ∀ c ∈ s.waiting, t.Path source c.trail.reverse c.router
  /-- These come by settled routers before. -/
  settled : ∀ c ∈ s.waiting, ∀ r ∈ t.stops c.trail.reverse c.router,
    r = c.router ∨ s.settled[r.index]? = some true
  /-- The parent links lead back over the same routers. -/
  onTrack : ∀ c ∈ s.waiting, t.OnTrack s'.parents c.trail.reverse

/-- A router that is not settled gets a candidate if it has no better one. -/
theorem explore_cons {here : Candidate α} {l : LinkId} {link : Link α} {next : Router α}
    {links : List LinkId} {s : Search α} {settled : Bool} (hl : t.links[l.index]? = some link)
    (hnext : t.routers[link.sink.index]? = some next)
    (hsettled : s.settled[link.sink.index]? = some settled) :
    explore t here (l :: links) s =
      explore t here links
        (if settled then s else
          { s with
            waiting := offer
              ⟨link.sink, here.latency + link.latency + next.latency, l :: here.trail⟩
              s.waiting }) := by
  have hlink : t.link l = .ok link := Attempt.entry_eq_ok_iff.2 hl
  have hrouter : t.router link.sink = .ok next := Attempt.entry_eq_ok_iff.2 hnext
  have hentry : (Attempt.entry s.settled link.sink : Attempt α Bool) = .ok settled :=
    Attempt.entry_eq_ok_iff.2 hsettled
  rw [explore, hlink, Attempt.ok_bind, hentry, Attempt.ok_bind]
  cases settled with
  | true => rfl
  | false =>
    show (t.router link.sink >>= _) = _
    rw [hrouter]
    rfl

theorem exploreLinked_cons {latency best : α} {l : LinkId} {link : Link α} {next : Router α}
    {links : List LinkId} {s : LinkedSearch α} {settled : Bool}
    (hl : t.links[l.index]? = some link) (hnext : t.routers[link.sink.index]? = some next)
    (hsettled : s.settled[link.sink.index]? = some settled)
    (hbest : s.best[link.sink.index]? = some best) :
    exploreLinked t latency (l :: links) s =
      exploreLinked t latency links
        (if settled then s
        else if latency + link.latency + next.latency < best then
          { s with
            best := s.best.setIfInBounds link.sink.index
              (latency + link.latency + next.latency)
            parents := s.parents.setIfInBounds link.sink.index (some l)
            queue := push ⟨link.sink, latency + link.latency + next.latency, []⟩ s.queue }
        else s) := by
  have hlink : t.link l = .ok link := Attempt.entry_eq_ok_iff.2 hl
  have hrouter : t.router link.sink = .ok next := Attempt.entry_eq_ok_iff.2 hnext
  have hentry : (Attempt.entry s.settled link.sink : Attempt α Bool) = .ok settled :=
    Attempt.entry_eq_ok_iff.2 hsettled
  have hbest' : (Attempt.entry s.best link.sink : Attempt α α) = .ok best :=
    Attempt.entry_eq_ok_iff.2 hbest
  rw [exploreLinked, hlink, Attempt.ok_bind, hentry, Attempt.ok_bind]
  cases settled with
  | true => rfl
  | false =>
    show (t.router link.sink >>= _) = _
    rw [hrouter, Attempt.ok_bind]
    show (Attempt.entry s.best link.sink >>= _) = _
    rw [hbest', Attempt.ok_bind]
    show (if _ then _ else _) = exploreLinked t latency links (if _ then _ else _)
    split <;> rfl

/-- A better candidate is found for a router that is not settled. -/
theorem Search.Follows.push {s : Search α} {s' : LinkedSearch α} (h : s.Follows t source s')
    {here : Candidate α} (hhere : t.Marked source s.settled here.trail here.router)
    (hparents : t.OnTrack s'.parents here.trail.reverse) {l : LinkId} {link : Link α}
    (hl : t.links[l.index]? = some link) (hlink : link.source = here.router)
    (hnew : s.settled[link.sink.index]? = some false) (latency : α) :
    Search.Follows t source
      { s with waiting := LeastLatency.push ⟨link.sink, latency, l :: here.trail⟩ s.waiting }
      { s' with
        best := s'.best.setIfInBounds link.sink.index latency
        parents := s'.parents.setIfInBounds link.sink.index (some l)
        queue := LeastLatency.push ⟨link.sink, latency, []⟩ s'.queue } := by
  have hlt : link.sink.index < t.routers.size :=
    h.size_settled ▸ (Array.getElem?_eq_some_iff.1 hnew).1
  have hmem : ∀ {d}, d ∈ LeastLatency.push ⟨link.sink, latency, l :: here.trail⟩ s.waiting →
      d = ⟨link.sink, latency, l :: here.trail⟩ ∨ d ∈ s.waiting ∧ d.router ≠ link.sink :=
    fun hd ↦ mem_of_mem_push h.nodup hd
  constructor
  · exact h.settled_eq
  · rw [map_bare_push, h.queue_eq]
    rfl
  · intro r hr
    rw [bestOf_push, Array.getElem?_setIfInBounds]
    rcases eq_or_ne link.sink r with rfl | hne
    · simp [h.size_best, hlt]
    · rw [if_neg fun e ↦ hne (Id.ext e), if_neg hne]
      exact h.best_eq r hr
  · exact h.size_settled
  · simpa using h.size_best
  · simpa using h.size_parents
  · exact nodup_push _ h.nodup
  · intro d hd
    rcases hmem hd with rfl | ⟨hd, -⟩
    · exact hnew
    · exact h.unsettled d hd
  · intro d hd
    rcases hmem hd with rfl | ⟨hd, -⟩
    · exact hhere.path_cons hl hlink hnew
    · exact h.path d hd
  · intro d hd r hr
    rcases hmem hd with rfl | ⟨hd, -⟩
    · rw [Topology.Marked.stops_cons hl hlink] at hr
      exact (List.mem_append.1 hr).symm.imp List.mem_singleton.1 (hhere.marked r)
    · exact h.settled d hd r hr
  · intro d hd
    rcases hmem hd with rfl | ⟨hd, hne⟩
    · rw [List.reverse_cons]
      exact hparents.concat hhere.path.walk hl (hhere.notMem_stops hnew)
        (h.size_parents.symm ▸ hlt)
    · -- the router is neither settled nor that of the other candidate, so it is not on the way
      refine (h.onTrack d hd).set (h.path d hd).walk (fun hstop ↦ ?_) _
      rcases h.settled d hd link.sink hstop with heq | hmarked
      · exact hne heq.symm
      · rw [hnew] at hmarked
        cases hmarked

theorem explore_follows (hc : t.Closed) {here : Candidate α} {links : List LinkId}
    (hlinks : ∀ l ∈ links, t.leaves here.router l = true) {s : Search α} {s' : LinkedSearch α}
    (h : s.Follows t source s') (hhere : t.Marked source s.settled here.trail here.router)
    (hparents : t.OnTrack s'.parents here.trail.reverse) :
    ∃ s₁ s₁', explore t here links s = .ok s₁ ∧
      exploreLinked t here.latency links s' = .ok s₁' ∧ s₁.Follows t source s₁' ∧
      s₁.settled = s.settled := by
  induction links generalizing s s' with
  | nil => exact ⟨s, s', rfl, rfl, h, rfl⟩
  | cons l links ih =>
    obtain ⟨hl, hlinks⟩ := List.forall_mem_cons.1 hlinks
    obtain ⟨link, hlink, hsource⟩ := Topology.leaves_iff.1 hl
    have hlt : link.sink.index < t.routers.size := hc link (Array.mem_of_getElem? hlink)
    obtain ⟨next, hnext⟩ : ∃ next, t.routers[link.sink.index]? = some next :=
      ⟨_, Array.getElem?_eq_getElem hlt⟩
    obtain ⟨settled, hsettled⟩ : ∃ settled, s.settled[link.sink.index]? = some settled :=
      ⟨_, Array.getElem?_eq_getElem (h.size_settled.symm ▸ hlt)⟩
    obtain ⟨best, hbest⟩ : ∃ best, s'.best[link.sink.index]? = some best :=
      ⟨_, Array.getElem?_eq_getElem (h.size_best.symm ▸ hlt)⟩
    rw [explore_cons hlink hnext hsettled,
      exploreLinked_cons hlink hnext (h.settled_eq ▸ hsettled) hbest]
    cases settled with
    | true => exact ih hlinks h hhere hparents
    | false =>
      have hknown : best = bestOf s.waiting link.sink :=
        Option.some.inj (hbest.symm.trans (h.best_eq _ hsettled))
      simp only [offer_eq, hknown, Bool.false_eq_true, if_false]
      split
      · exact ih hlinks (h.push hhere hparents hlink hsource hsettled _) hhere
          (hparents.set hhere.path.walk (hhere.notMem_stops hsettled) _)
      · exact ih hlinks h hhere hparents

/-- A search without candidates finds nothing. -/
theorem search_nil {s : Search α} (h : s.waiting = []) (fuel : Nat) :
    search t sink fuel s = .ok none := by
  rw [search, h]
  rfl

/-- A search ends when the sink is next. -/
theorem search_sink {s : Search α} {here : Candidate α} {others : List (Candidate α)}
    (h : takeNext s.waiting = some (here, others)) (hsink : here.router = sink) (fuel : Nat) :
    search t sink fuel s = .ok (some here.trail.reverse) := by
  rw [search, h]
  exact if_pos hsink

/-- A search without a step left does not settle another router. -/
theorem search_zero {s : Search α} {here : Candidate α} {others : List (Candidate α)}
    (h : takeNext s.waiting = some (here, others)) (hsink : here.router ≠ sink) :
    search t sink 0 s = Attempt.crash .stepsExhausted := by
  rw [search, h]
  exact if_neg hsink

/-- A search settles the router that is next. -/
theorem search_cons {s s₁ : Search α} {here : Candidate α} {others : List (Candidate α)}
    {links : List LinkId} (h : takeNext s.waiting = some (here, others))
    (hsink : here.router ≠ sink) (hlinks : t.outgoing here.router = .ok links)
    (hexplore : explore t here links
      { settled := s.settled.setIfInBounds here.router.index true, waiting := others } = .ok s₁)
    (fuel : Nat) : search t sink (fuel + 1) s = search t sink fuel s₁ := by
  rw [search, h]
  show (if here.router = sink then _ else t.outgoing here.router >>= _) = _
  rw [if_neg hsink, hlinks, Attempt.ok_bind, hexplore, Attempt.ok_bind]

theorem searchLinked_nil {s : LinkedSearch α} (h : takeNext s.queue = none) (fuel : Nat) :
    searchLinked t sink fuel s = .ok none := by
  rw [searchLinked, h]

theorem searchLinked_sink {s : LinkedSearch α} {here : Candidate α}
    {others : List (Candidate α)} (h : takeNext s.queue = some (here, others))
    (hsink : here.router = sink) (fuel : Nat) :
    searchLinked t sink fuel s = .ok (some s.parents) := by
  rw [searchLinked, h]
  exact if_pos hsink

theorem searchLinked_cons {s s₁ : LinkedSearch α} {here : Candidate α}
    {others : List (Candidate α)} {links : List LinkId}
    (h : takeNext s.queue = some (here, others)) (hsink : here.router ≠ sink)
    (hlinks : t.outgoing here.router = .ok links)
    (hexplore : exploreLinked t here.latency links
      { s with settled := s.settled.setIfInBounds here.router.index true, queue := others } =
        .ok s₁)
    (fuel : Nat) : searchLinked t sink (fuel + 1) s = searchLinked t sink fuel s₁ := by
  rw [searchLinked, h]
  show (if here.router = sink then _ else t.outgoing here.router >>= _) = _
  rw [if_neg hsink, hlinks, Attempt.ok_bind, hexplore, Attempt.ok_bind]

/-- The router that is next is settled. -/
theorem Search.Follows.settle {s : Search α} {s' : LinkedSearch α} (h : s.Follows t source s')
    {here : Candidate α} {others : List (Candidate α)}
    (hnext : takeNext s.waiting = some (here, others)) :
    t.Marked source (s.settled.setIfInBounds here.router.index true) here.trail here.router ∧
      Search.Follows t source
        { settled := s.settled.setIfInBounds here.router.index true, waiting := others }
        { s' with
          settled := s'.settled.setIfInBounds here.router.index true
          queue := others.map (·.bare) } := by
  have hperm := takeNext_perm hnext
  have hmem : ∀ {c}, c ∈ others → c ∈ s.waiting := fun hc ↦
    hperm.mem_iff.2 (List.mem_cons_of_mem here hc)
  have hhere : here ∈ s.waiting := hperm.mem_iff.2 List.mem_cons_self
  obtain ⟨hother, hnodup⟩ := List.nodup_cons.1 ((hperm.map (·.router)).nodup_iff.1 h.nodup)
  have hlt := (Array.getElem?_eq_some_iff.1 (h.unsettled here hhere)).1
  have hne : ∀ {i}, (s.settled.setIfInBounds here.router.index true)[i]? = some false →
      here.router.index ≠ i ∧ s.settled[i]? = some false := by
    intro i hi
    rcases eq_or_ne here.router.index i with rfl | hdiff
    · rw [Array.getElem?_setIfInBounds_self_of_lt hlt] at hi
      cases hi
    · rw [Array.getElem?_setIfInBounds, if_neg hdiff] at hi
      exact ⟨hdiff, hi⟩
  refine ⟨⟨h.path here hhere, fun r hr ↦ ?_⟩, ?_⟩
  · rcases h.settled here hhere r hr with rfl | hsettled
    · exact Array.getElem?_setIfInBounds_self_of_lt hlt
    · exact marked_setIfInBounds hsettled
  · refine ⟨by rw [h.settled_eq], rfl, fun r hr ↦ ?_, by simpa using h.size_settled, h.size_best,
      h.size_parents, hnodup, fun c hc ↦ ?_, fun c hc ↦ h.path c (hmem hc), fun c hc r hr ↦ ?_,
      fun c hc ↦ h.onTrack c (hmem hc)⟩
    · obtain ⟨hr, hunsettled⟩ := hne hr
      rw [bestOf_of_takeNext h.nodup hnext fun e ↦ hr (e ▸ rfl)]
      exact h.best_eq r hunsettled
    · have hdiff : here.router.index ≠ c.router.index := fun e ↦
        hother (List.mem_map.2 ⟨c, hc, (Id.ext e).symm⟩)
      rw [Array.getElem?_setIfInBounds, if_neg hdiff]
      exact h.unsettled c (hmem hc)
    · exact (h.settled c (hmem hc) r hr).imp_right marked_setIfInBounds

/-- **Both searches side by side.** Neither looks past the end of a table. They find a path and the
parent links that lead back over it, or neither finds anything; and more steps make no
difference. -/
theorem search_follows (hw : t.WellFormed) (hc : t.Closed) (sink : RouterId) {fuel : Nat}
    {s : Search α}
    {s' : LinkedSearch α} (h : s.Follows t source s') (hfuel : s.settled.count false ≤ fuel) :
    (∀ more, search t sink (more + fuel) s = search t sink fuel s) ∧
      (search t sink fuel s = .ok none ∧ searchLinked t sink fuel s' = .ok none ∨
        ∃ route parents, search t sink fuel s = .ok (some route) ∧
          searchLinked t sink fuel s' = .ok (some parents) ∧
          t.Path source route sink ∧ t.OnTrack parents route ∧ sink.index < t.routers.size) := by
  induction fuel generalizing s s' with
  | zero =>
    have hnil : s.waiting = [] := by
      refine List.eq_nil_iff_forall_not_mem.2 fun c hmem ↦ ?_
      have hcount := count_false_setIfInBounds (h.unsettled c hmem)
      omega
    have hnil' : takeNext s'.queue = none := by
      rw [h.queue_eq, hnil]
      rfl
    exact ⟨fun more ↦ (search_nil hnil more).trans (search_nil hnil 0).symm,
      .inl ⟨search_nil hnil 0, searchLinked_nil hnil' 0⟩⟩
  | succ fuel ih =>
    have hqueue : takeNext s'.queue =
        (takeNext s.waiting).map fun (c, others) ↦ (c.bare, others.map (·.bare)) := by
      rw [h.queue_eq, takeNext_map_bare]
    cases hnext : takeNext s.waiting with
    | none =>
      rw [hnext] at hqueue
      have hnil := takeNext_eq_none_iff.1 hnext
      refine ⟨fun more ↦ ?_, .inl ⟨search_nil hnil _, searchLinked_nil hqueue _⟩⟩
      rw [search_nil hnil, search_nil hnil]
    | some next =>
      obtain ⟨here, others⟩ := next
      rw [hnext] at hqueue
      have hmem : here ∈ s.waiting := (takeNext_perm hnext).mem_iff.2 List.mem_cons_self
      have hunsettled := h.unsettled here hmem
      have hlt : here.router.index < t.routers.size :=
        h.size_settled ▸ (Array.getElem?_eq_some_iff.1 hunsettled).1
      by_cases hsink : here.router = sink
      · subst hsink
        refine ⟨fun more ↦ ?_, .inr ⟨_, _, search_sink hnext rfl _,
          searchLinked_sink hqueue rfl _, h.path here hmem, h.onTrack here hmem, hlt⟩⟩
        rw [search_sink hnext rfl, search_sink hnext rfl]
      · obtain ⟨hmarked, hsettle⟩ := h.settle hnext
        obtain ⟨s₁, s₁', heq, heq', hfollows, hsettled⟩ :=
          explore_follows hc (t.leaves_of_listed here.router) hsettle hmarked
            (h.onTrack here hmem)
        have hfuel₁ : s₁.settled.count false ≤ fuel := by
          have hcount := count_false_setIfInBounds hunsettled
          rw [hsettled]
          show (s.settled.setIfInBounds here.router.index true).count false ≤ fuel
          omega
        have hout := hw.outgoing_eq here.router hlt
        obtain ⟨hmore, hcases⟩ := ih hfollows hfuel₁
        rw [search_cons hnext hsink hout heq, searchLinked_cons hqueue hsink hout heq']
        exact ⟨fun more ↦ (search_cons hnext hsink hout heq (more + fuel)).trans (hmore more),
          hcases⟩

/-! ### Routes -/

theorem follows_start (hsource : source.index < t.routers.size) :
    (Search.start t source : Search α).Follows t source (.start t source) where
  settled_eq := rfl
  queue_eq := rfl
  best_eq r hr := by
    have hlt : r.index < t.routers.size := by
      simpa [Search.start] using (Array.getElem?_eq_some_iff.1 hr).1
    rw [LinkedSearch.start, Array.getElem?_setIfInBounds, bestOf, Search.start, List.find?_cons]
    rcases eq_or_ne source r with rfl | hne
    · simp [hsource]
    · have hindex : source.index ≠ r.index := fun e ↦ hne (Id.ext e)
      simp [hne, hindex, hlt]
  size_settled := by simp [Search.start]
  size_best := by simp [LinkedSearch.start]
  size_parents := by simp [LinkedSearch.start]
  nodup := List.nodup_singleton _
  unsettled := List.forall_mem_singleton.2 (by simp [Search.start, hsource])
  path := List.forall_mem_singleton.2 (.nil source)
  settled := List.forall_mem_singleton.2 fun _ hr ↦ .inl (List.mem_singleton.1 hr)
  onTrack := List.forall_mem_singleton.2 fun _ h ↦ absurd h List.not_mem_nil

theorem count_start :
    (Search.start t source : Search α).settled.count false = t.routers.size :=
  Array.count_replicate_self

/-- **More steps than there are routers** make no difference. -/
theorem routeWithin_eq (hw : t.WellFormed) (hc : t.Closed) (hsource : source.index < t.routers.size)
    {fuel : Nat} (hfuel : t.routers.size ≤ fuel) :
    routeWithin fuel t source sink = route t source sink := by
  have hsearch := (search_follows hw hc sink (follows_start hsource)
    (Nat.le_of_eq count_start)).1 (fuel - t.routers.size)
  rw [Nat.sub_add_cancel hfuel] at hsearch
  show _ = routeWithin t.routers.size t source sink
  rw [routeWithin, routeWithin, hsearch]

/-- **Routing with the least latency** ends with a path from the source to the sink, or there is no
route; and with parent links it ends with the same. -/
theorem route_cases (hw : t.WellFormed) (hc : t.Closed) (hsource : source.index < t.routers.size)
    (sink : RouterId) :
    (∃ found, t.Path source found sink ∧ route t source sink = .ok found ∧
      routeLinked t source sink = .ok (some found)) ∨
    ∃ why, route t source sink =
        .error (.error (.routingFailed .leastLatency source sink why)) ∧
      routeLinked t source sink =
        .error (.error (.routingFailed .leastLatency source sink why)) := by
  by_cases hne : source = sink
  · subst hne
    exact .inl ⟨[], .nil source, if_pos rfl, if_pos rfl⟩
  · have hrouter : t.router source = .ok t.routers[source.index] :=
      Attempt.entry_eq_ok_iff.2 (Array.getElem?_eq_getElem hsource)
    rw [route, routeLinked, if_neg hne, if_neg hne, hrouter, Attempt.ok_bind, Attempt.ok_bind]
    obtain ⟨-, ⟨heq, heq'⟩ | ⟨found, parents, heq, heq', hpath, htrack, hsink⟩⟩ :=
      search_follows hw hc sink (follows_start hsource) (Nat.le_of_eq count_start)
    · rw [heq, heq']
      exact .inr ⟨.unreachable, rfl, rfl⟩
    · have hretrace := Topology.retrace_eq hpath htrack (Nat.le_of_lt (hpath.length_lt hw hsink)) []
      rw [List.append_nil] at hretrace
      rw [heq, heq']
      exact .inl ⟨found, hpath, rfl, congrArg Except.ok hretrace⟩

/-- **Routing with the least latency** ends with a walk from the source to the sink or with an
error. -/
theorem route_ensures (hw : t.WellFormed) (hc : t.Closed)
    (hsource : source.index < t.routers.size) :
    (route t source sink).Ensures fun route ↦ t.Walk source route sink := by
  rcases route_cases hw hc hsource sink with ⟨_, hpath, heq, _⟩ | ⟨_, heq, _⟩
  · rw [heq]
    exact hpath.walk
  · rw [heq]
    trivial

end LeastLatency

end NetOnChip
