import Mathlib.Data.List.Basic
import NetOnChip.Proofs.Routing.LeastLatency

/-!
# Searching by latency with a priority queue

The search by latency may leave it to a priority queue which router is settled next. Of the queue no
more is known than its operations and what they promise (`Queue.Lawful`): adding a router replaces
the entry that it has, and no entry precedes the one that is taken out. How the entries are stored
is up to the queue.

If scalars are ordered totally, as doubles and exact ones are, then so are candidates for different
routers, and there is only one entry that may be taken out. So a search with a queue does the same,
step by step, as one with a list of candidates (`QueuedSearch.Follows`), and it finds the same
routes (`routeQueued_eq`). A list of candidates is such a queue (`Queue.lawful_ofList`).
-/

namespace NetOnChip

namespace Attempt

variable {α β β' γ γ' : Type}

/-- Two attempts that end with related values, or with the same failure. -/
def Agree (R : β → β' → Prop) (x : Attempt α β) (x' : Attempt α β') : Prop :=
  (∃ b b', x = .ok b ∧ x' = .ok b' ∧ R b b') ∨ ∃ e, x = .error e ∧ x' = .error e

theorem agree_ok {R : β → β' → Prop} {b : β} {b' : β'} (h : R b b') :
    Agree R (.ok b : Attempt α β) (.ok b') :=
  .inl ⟨b, b', rfl, rfl, h⟩

/-- An attempt agrees with itself. -/
theorem agree_self (x : Attempt α β) : Agree Eq x x := by
  cases x with
  | ok b => exact agree_ok rfl
  | error e => exact .inr ⟨e, rfl, rfl⟩

theorem Agree.eq {x x' : Attempt α β} (h : Agree Eq x x') : x = x' := by
  obtain ⟨b, _, rfl, rfl, rfl⟩ | ⟨e, rfl, rfl⟩ := h <;> rfl

/-- **Attempts that agree may go on** with attempts that agree. -/
theorem Agree.bind {R : β → β' → Prop} {S : γ → γ' → Prop} {x : Attempt α β} {x' : Attempt α β'}
    {k : β → Attempt α γ} {k' : β' → Attempt α γ'} (h : Agree R x x')
    (hk : ∀ b b', R b b' → Agree S (k b) (k' b')) : Agree S (x >>= k) (x' >>= k') := by
  obtain ⟨b, b', rfl, rfl, hb⟩ | ⟨e, rfl, rfl⟩ := h
  · exact hk b b' hb
  · exact .inr ⟨e, rfl, rfl⟩

/-- Both go on after the same first step. -/
theorem agree_bind {S : γ → γ' → Prop} (x : Attempt α β) {k : β → Attempt α γ}
    {k' : β → Attempt α γ'} (hk : ∀ b, Agree S (k b) (k' b)) : Agree S (x >>= k) (x >>= k') :=
  (agree_self x).bind fun b _ hb ↦ hb ▸ hk b

end Attempt

namespace LeastLatency

variable {α : Type} [Scalar α]

/-! ### The order of candidates -/

/-- How two candidates compare: by their latencies first, and then by their routers. -/
def Candidate.order (c d : Candidate α) : Ordering :=
  (Scalar.order c.latency d.latency).then (compare c.router.index d.router.index)

theorem Candidate.precedes_iff {c d : Candidate α} : c.precedes d = true ↔ c.order d = .lt :=
  decide_eq_true_iff

section Order

variable [Std.TransCmp (Scalar.order : α → α → Ordering)]

instance : Std.TransCmp (Candidate.order : Candidate α → Candidate α → Ordering) :=
  have : Std.TransCmp fun c d : Candidate α ↦ Scalar.order c.latency d.latency :=
    { eq_swap := Std.OrientedCmp.eq_swap, isLE_trans := Std.TransCmp.isLE_trans }
  inferInstanceAs (Std.TransCmp (compareLex
    (fun c d : Candidate α ↦ Scalar.order c.latency d.latency)
    (compareOn fun c : Candidate α ↦ c.router.index)))

/-- Doubles are ordered by their bits, also those that are not numbers. -/
instance : Std.TransCmp (Scalar.order : Float → Float → Ordering) :=
  inferInstanceAs (Std.TransCmp (compareOn Double.rank))

/-- Of two candidates for different routers one precedes the other. -/
theorem Candidate.precedes_of_not_precedes {c d : Candidate α} (hne : c.router ≠ d.router)
    (h : ¬ d.precedes c) : c.precedes d := by
  rw [precedes_iff] at h ⊢
  cases heq : c.order d with
  | lt => rfl
  | gt => exact absurd (Std.OrientedCmp.gt_iff_lt.1 heq) h
  | eq =>
    have hindex := (Ordering.then_eq_eq.1 heq).2
    exact absurd (Id.ext (Nat.compare_eq_eq.1 hindex)) hne

theorem Candidate.precedes_asymm {c d : Candidate α} (h : c.precedes d) : ¬ d.precedes c := by
  rw [precedes_iff] at h ⊢
  exact Std.OrientedCmp.not_lt_of_lt h

theorem Candidate.precedes_trans {c d e : Candidate α} (h : c.precedes d) (h' : d.precedes e) :
    c.precedes e := by
  rw [precedes_iff] at h h' ⊢
  exact Std.TransCmp.lt_trans h h'

/-- **The candidate that is taken out** precedes all others. -/
theorem precedes_of_takeNext {waiting others : List (Candidate α)} {c : Candidate α}
    (hnodup : (waiting.map (·.router)).Nodup) (h : takeNext waiting = some (c, others)) :
    ∀ d ∈ others, c.precedes d := by
  induction waiting generalizing c others with
  | nil => cases h
  | cons e waiting ih =>
    obtain ⟨he, hwaiting⟩ := List.nodup_cons.1 hnodup
    rw [takeNext] at h
    split at h
    · cases h
      exact List.forall_mem_nil _
    · rename_i d rest hd
      have hfirst := ih hwaiting hd
      have hperm := takeNext_perm hd
      split at h <;> rename_i hde
      · cases h
        exact List.forall_mem_cons.2 ⟨hde, hfirst⟩
      · cases h
        have hmem : d ∈ waiting := hperm.mem_iff.2 List.mem_cons_self
        have hne : e.router ≠ d.router := fun heq ↦ he (List.mem_map.2 ⟨d, hmem, heq.symm⟩)
        have hed := Candidate.precedes_of_not_precedes hne hde
        intro x hx
        rcases List.mem_cons.1 (hperm.mem_iff.1 hx) with rfl | hx
        · exact hed
        · exact Candidate.precedes_trans hed (hfirst x hx)

end Order

omit [Scalar α] in
/-- The candidates after one was added: that one, and those for other routers. -/
theorem mem_push_iff {c d : Candidate α} {waiting : List (Candidate α)}
    (h : (waiting.map (·.router)).Nodup) :
    d ∈ push c waiting ↔ d = c ∨ d ∈ waiting ∧ d.router ≠ c.router := by
  refine ⟨mem_of_mem_push h, ?_⟩
  clear h
  induction waiting with
  | nil => simp [push]
  | cons e waiting ih =>
    rw [push]
    split
    · rename_i hec
      rintro (rfl | ⟨hd, hne⟩)
      · exact List.mem_cons_self
      · rcases List.mem_cons.1 hd with rfl | hd
        · exact absurd hec hne
        · exact List.mem_cons_of_mem c hd
    · rintro (rfl | ⟨hd, hne⟩)
      · exact List.mem_cons_of_mem e (ih (.inl rfl))
      · rcases List.mem_cons.1 hd with rfl | hd
        · exact List.mem_cons_self
        · exact List.mem_cons_of_mem e (ih (.inr ⟨hd, hne⟩))

/-- A router waits with a latency. -/
def Waits (waiting : List (Candidate α)) (r : RouterId) (latency : α) : Prop :=
  ∃ c ∈ waiting, c.router = r ∧ c.latency = latency

omit [Scalar α] in
theorem waits_push_iff {c : Candidate α} {waiting : List (Candidate α)}
    (h : (waiting.map (·.router)).Nodup) {r : RouterId} {latency : α} :
    Waits (push c waiting) r latency ↔
      if c.router = r then c.latency = latency else Waits waiting r latency := by
  simp only [Waits, mem_push_iff h]
  split
  · rename_i hr
    constructor
    · rintro ⟨d, rfl | ⟨-, hne⟩, hd, heq⟩
      · exact heq
      · exact absurd (hd.trans hr.symm) hne
    · exact fun heq ↦ ⟨c, .inl rfl, hr, heq⟩
  · rename_i hr
    constructor
    · rintro ⟨d, rfl | ⟨hd, -⟩, hr', heq⟩
      · exact absurd hr' hr
      · exact ⟨d, hd, hr', heq⟩
    · rintro ⟨d, hd, rfl, heq⟩
      exact ⟨d, .inr ⟨hd, Ne.symm hr⟩, rfl, heq⟩

/-- The others wait when one was taken out. -/
theorem waits_iff_of_takeNext {waiting others : List (Candidate α)} {c : Candidate α}
    (hnodup : (waiting.map (·.router)).Nodup) (h : takeNext waiting = some (c, others))
    {r : RouterId} {latency : α} :
    Waits others r latency ↔ c.router ≠ r ∧ Waits waiting r latency := by
  have hperm := takeNext_perm h
  have hout := (List.nodup_cons.1 ((hperm.map (·.router)).nodup_iff.1 hnodup)).1
  constructor
  · rintro ⟨d, hd, rfl, heq⟩
    refine ⟨fun hr ↦ hout (List.mem_map.2 ⟨d, hd, hr.symm⟩), d, ?_, rfl, heq⟩
    exact hperm.mem_iff.2 (List.mem_cons_of_mem c hd)
  · rintro ⟨hr, d, hd, rfl, heq⟩
    rcases List.mem_cons.1 (hperm.mem_iff.1 hd) with rfl | hd
    · exact absurd rfl hr
    · exact ⟨d, hd, rfl, heq⟩

/-! ### Queues -/

/-- A priority queue of routers. Nothing is known of it but its operations. -/
structure Queue (α : Type) where
  /-- What the entries are kept in. -/
  Store : Type
  /-- No entries. -/
  empty : Store
  /-- Adds a router with a latency. -/
  push : RouterId → α → Store → Store
  /-- Takes out a router with its latency, if there is one. -/
  pop : Store → Option ((RouterId × α) × Store)
  /-- The latency of a router, if it has an entry. -/
  latency? : Store → RouterId → Option α

/-- What is relied on: adding a router replaces the entry that it has, and no entry precedes the one
that is taken out. -/
structure Queue.Lawful (q : Queue α) : Prop where
  /-- There are no entries at first. -/
  latency?_empty : ∀ r, q.latency? q.empty r = none
  /-- The router that is added has the latency that is given, whatever it had before. -/
  latency?_push : ∀ r latency s r',
    q.latency? (q.push r latency s) r' = if r = r' then some latency else q.latency? s r'
  /-- Something is taken out as long as there are entries. -/
  latency?_of_pop_eq_none : ∀ {s}, q.pop s = none → ∀ r, q.latency? s r = none
  /-- What is taken out was an entry. -/
  latency?_of_pop : ∀ {s r latency s'}, q.pop s = some ((r, latency), s') →
    q.latency? s r = some latency
  /-- No entry precedes it. -/
  not_precedes_of_pop : ∀ {s r latency s'}, q.pop s = some ((r, latency), s') →
    ∀ r' latency', q.latency? s r' = some latency' →
      ¬ (⟨r', latency', []⟩ : Candidate α).precedes ⟨r, latency, []⟩
  /-- The other entries are left. -/
  latency?_pop : ∀ {s r latency s'}, q.pop s = some ((r, latency), s') →
    ∀ r', q.latency? s' r' = if r = r' then none else q.latency? s r'

namespace Queue

variable {q : Queue α} {store : q.Store} {waiting : List (Candidate α)}

/-- The entries of a queue are some candidates. -/
structure Holds (q : Queue α) (store : q.Store) (waiting : List (Candidate α)) : Prop where
  /-- Every router has one candidate at most. -/
  nodup : (waiting.map (·.router)).Nodup
  /-- The entries are the latencies of the candidates. -/
  latency?_eq_some_iff : ∀ {r latency}, q.latency? store r = some latency ↔ Waits waiting r latency

theorem Holds.push (h : q.Holds store waiting) (hq : q.Lawful) (c : Candidate α) :
    q.Holds (q.push c.router c.latency store) (LeastLatency.push c waiting) where
  nodup := nodup_push c h.nodup
  latency?_eq_some_iff {r latency} := by
    rw [hq.latency?_push, waits_push_iff h.nodup]
    split
    · exact Option.some_inj
    · exact h.latency?_eq_some_iff

/-- **Taking out the next entry** takes out the candidate that precedes all others. -/
theorem Holds.pop [Std.TransCmp (Scalar.order : α → α → Ordering)] (h : q.Holds store waiting)
    (hq : q.Lawful) :
    (q.pop store = none ∧ takeNext waiting = none) ∨
      ∃ c others store', takeNext waiting = some (c, others) ∧
        q.pop store = some ((c.router, c.latency), store') ∧ q.Holds store' others := by
  cases hpop : q.pop store with
  | none =>
    refine .inl ⟨rfl, takeNext_eq_none_iff.2 (List.eq_nil_iff_forall_not_mem.2 fun c hc ↦ ?_)⟩
    have hentry := h.latency?_eq_some_iff.2 ⟨c, hc, rfl, rfl⟩
    rw [hq.latency?_of_pop_eq_none hpop] at hentry
    cases hentry
  | some entry =>
    obtain ⟨⟨r, latency⟩, store'⟩ := entry
    obtain ⟨d, hd, rfl, rfl⟩ := h.latency?_eq_some_iff.1 (hq.latency?_of_pop hpop)
    cases hnext : takeNext waiting with
    | none =>
      rw [takeNext_eq_none_iff.1 hnext] at hd
      exact absurd hd List.not_mem_nil
    | some next =>
      obtain ⟨c, others⟩ := next
      have hperm := takeNext_perm hnext
      have hc : c ∈ waiting := hperm.mem_iff.2 List.mem_cons_self
      have hsame : d = c := by
        by_contra hne
        have hother := (List.mem_cons.1 (hperm.mem_iff.1 hd)).resolve_left hne
        exact hq.not_precedes_of_pop hpop c.router c.latency
          (h.latency?_eq_some_iff.2 ⟨c, hc, rfl, rfl⟩) (precedes_of_takeNext h.nodup hnext d hother)
      subst hsame
      have hnodup := (List.nodup_cons.1 ((hperm.map (·.router)).nodup_iff.1 h.nodup)).2
      refine .inr ⟨d, others, store', rfl, rfl, hnodup, fun {r latency} ↦ ?_⟩
      rw [hq.latency?_pop hpop, waits_iff_of_takeNext h.nodup hnext]
      split
      · rename_i hr
        exact iff_of_false nofun fun hother ↦ hother.1 hr
      · rename_i hr
        rw [h.latency?_eq_some_iff, and_iff_right hr]

end Queue

/-! ### Searching with any queue -/

/-- The state of a search with a queue. -/
structure QueuedSearch (q : Queue α) where
  /-- For every router whether it was settled. -/
  settled : Array Bool
  /-- For every router the least latency known for it. -/
  best : Array α
  /-- For every router but the source the link of the best route found so far. -/
  parents : Array (Option LinkId)
  /-- The routers that were reached and not settled. -/
  queue : q.Store

/-- Follows the links that leave a router that was just settled, one after the other. -/
def exploreQueued (q : Queue α) (t : Topology α) (latency : α) :
    List LinkId → QueuedSearch q → Attempt α (QueuedSearch q)
  | [], s => .ok s
  | l :: links, s => do
    let link ← t.link l
    if ← Attempt.entry s.settled link.sink then
      exploreQueued q t latency links s
    else
      let next ← t.router link.sink
      let tentative := latency + link.latency + next.latency
      if tentative < (← Attempt.entry s.best link.sink) then
        exploreQueued q t latency links
          { s with
            best := s.best.setIfInBounds link.sink.index tentative
            parents := s.parents.setIfInBounds link.sink.index (some l)
            queue := q.push link.sink tentative s.queue }
      else
        exploreQueued q t latency links s

/-- Settles one waiting router after the other until the sink is next, and answers the parents
then. -/
def searchQueued (q : Queue α) (t : Topology α) (sink : RouterId) :
    Nat → QueuedSearch q → Attempt α (Option (Array (Option LinkId)))
  | fuel, s =>
    match q.pop s.queue with
    | none => .ok none
    | some ((here, latency), queue) =>
      if here = sink then
        .ok (some s.parents)
      else
        match fuel with
        | 0 => Attempt.crash .stepsExhausted
        | fuel + 1 => do
          let links ← t.outgoing here
          let s ← exploreQueued q t latency links
            { s with settled := s.settled.setIfInBounds here.index true, queue }
          searchQueued q t sink fuel s

/-- A search in which only the source waits. -/
def QueuedSearch.start (q : Queue α) (t : Topology α) (source : RouterId) : QueuedSearch q where
  settled := Array.replicate t.routers.size false
  best := (Array.replicate t.routers.size Scalar.infinity).setIfInBounds source.index 0
  parents := Array.replicate t.routers.size none
  queue := q.push source 0 q.empty

/-- The route that the parent links of a search with a queue lead back. It is missing if one of them
is. -/
def routeQueued (q : Queue α) (t : Topology α) (source sink : RouterId) :
    Attempt α (Option Route) :=
  if source = sink then
    .ok (some [])
  else do
    let _ ← t.router source
    match ← searchQueued q t sink t.routers.size (.start q t source) with
    | some parents => return t.retrace parents source t.routers.size sink []
    | none => Attempt.fail (.routingFailed .leastLatency source sink .unreachable)

/-- A search with a queue is in the state of a search with a list of candidates. -/
structure QueuedSearch.Follows {q : Queue α} (s : QueuedSearch q) (s' : LinkedSearch α) : Prop where
  /-- The same routers are settled. -/
  settled_eq : s.settled = s'.settled
  /-- The same latencies are known. -/
  best_eq : s.best = s'.best
  /-- The parent links are the same. -/
  parents_eq : s.parents = s'.parents
  /-- The same candidates wait. -/
  holds : q.Holds s.queue s'.queue

section Follows

variable {q : Queue α} (hq : q.Lawful) (t : Topology α)

include hq

theorem exploreQueued_agree (latency : α) (links : List LinkId) {s : QueuedSearch q}
    {s' : LinkedSearch α} (h : s.Follows s') :
    Attempt.Agree QueuedSearch.Follows (exploreQueued q t latency links s)
      (exploreLinked t latency links s') := by
  induction links generalizing s s' with
  | nil => exact Attempt.agree_ok h
  | cons l links ih =>
    rw [exploreQueued, exploreLinked, h.settled_eq]
    refine Attempt.agree_bind _ fun link ↦ Attempt.agree_bind _ fun settled ↦ ?_
    cases settled with
    | true => exact ih h
    | false =>
      refine Attempt.agree_bind _ fun next ↦ ?_
      rw [h.best_eq]
      refine Attempt.agree_bind _ fun best ↦ ?_
      split
      · refine ih ⟨rfl, rfl, ?_, h.holds.push hq ⟨link.sink, _, []⟩⟩
        rw [h.parents_eq]
      · exact ih h

variable [Std.TransCmp (Scalar.order : α → α → Ordering)]

theorem searchQueued_agree (sink : RouterId) (fuel : Nat) {s : QueuedSearch q}
    {s' : LinkedSearch α} (h : s.Follows s') :
    searchQueued q t sink fuel s = searchLinked t sink fuel s' := by
  induction fuel generalizing s s' with
  | zero =>
    rw [searchQueued, searchLinked]
    obtain ⟨hpop, hnext⟩ | ⟨here, others, store, hnext, hpop, -⟩ := h.holds.pop hq
    · rw [hpop, hnext]
    · simp only [hpop, hnext, h.parents_eq]
  | succ fuel ih =>
    rw [searchQueued, searchLinked]
    obtain ⟨hpop, hnext⟩ | ⟨here, others, store, hnext, hpop, hholds⟩ := h.holds.pop hq
    · rw [hpop, hnext]
    · simp only [hpop, hnext]
      split
      · rw [h.parents_eq]
      · refine (Attempt.agree_bind _ fun links ↦ ?_).eq
        have hsettle : QueuedSearch.Follows
            { s with settled := s.settled.setIfInBounds here.router.index true, queue := store }
            { s' with
              settled := s'.settled.setIfInBounds here.router.index true
              queue := others } :=
          ⟨by rw [h.settled_eq], h.best_eq, h.parents_eq, hholds⟩
        refine (exploreQueued_agree hq t here.latency links hsettle).bind fun s₁ s₁' h₁ ↦ ?_
        rw [ih h₁]
        exact Attempt.agree_self _

/-- **Any queue will do.** -/
theorem routeQueued_eq (source sink : RouterId) :
    routeQueued q t source sink = routeLinked t source sink := by
  have hstart : (QueuedSearch.start q t source).Follows (.start t source) := by
    have hempty : q.Holds q.empty [] :=
      ⟨List.nodup_nil, fun {r latency} ↦ by simp [hq.latency?_empty, Waits]⟩
    exact ⟨rfl, rfl, rfl, hempty.push hq ⟨source, 0, []⟩⟩
  unfold routeQueued routeLinked
  split
  · rfl
  · refine (Attempt.agree_bind _ fun _ ↦ ?_).eq
    rw [searchQueued_agree hq t sink _ hstart]
    refine Attempt.agree_bind _ fun parents ↦ ?_
    cases parents <;> exact Attempt.agree_self _

end Follows

/-! ### A queue -/

/-- The list of candidates as a queue. -/
def Queue.ofList (α : Type) [Scalar α] : Queue α where
  Store := { waiting : List (Candidate α) // (waiting.map (·.router)).Nodup }
  empty := ⟨[], List.nodup_nil⟩
  push r latency w := ⟨LeastLatency.push ⟨r, latency, []⟩ w, nodup_push _ w.2⟩
  pop w :=
    match h : takeNext w.1 with
    | none => none
    | some (c, others) =>
      some ((c.router, c.latency), ⟨others,
        (List.nodup_cons.1 (((takeNext_perm h).map (·.router)).nodup_iff.1 w.2)).2⟩)
  latency? w r := (w.1.find? fun c ↦ c.router = r).map (·.latency)

namespace Queue

theorem holds_ofList (w : (ofList α).Store) : (ofList α).Holds w w.1 where
  nodup := w.2
  latency?_eq_some_iff {r latency} := by
    show ((w.1.find? fun c ↦ c.router = r).map (·.latency)) = some latency ↔ _
    rw [Option.map_eq_some_iff]
    constructor
    · rintro ⟨c, hc, heq⟩
      exact ⟨c, List.mem_of_find?_eq_some hc, by simpa using List.find?_some hc, heq⟩
    · rintro ⟨c, hc, rfl, heq⟩
      cases hfind : w.1.find? fun d ↦ d.router = c.router with
      | none => simpa using List.find?_eq_none.1 hfind c hc
      | some d =>
        have hrouter : d.router = c.router := by simpa using List.find?_some hfind
        obtain rfl := List.inj_on_of_nodup_map w.2 (List.mem_of_find?_eq_some hfind) hc hrouter
        exact ⟨d, rfl, heq⟩

theorem takeNext_of_pop_ofList_eq_none {w : (ofList α).Store} (h : (ofList α).pop w = none) :
    takeNext w.1 = none := by
  simp only [ofList] at h
  split at h
  · assumption
  · cases h

theorem takeNext_of_pop_ofList {w w' : (ofList α).Store} {r : RouterId} {latency : α}
    (h : (ofList α).pop w = some ((r, latency), w')) :
    ∃ c, takeNext w.1 = some (c, w'.1) ∧ c.router = r ∧ c.latency = latency := by
  simp only [ofList] at h
  split at h
  · cases h
  · rename_i c others hnext
    cases h
    exact ⟨c, hnext, rfl, rfl⟩

/-- The list of candidates can be relied on. -/
theorem lawful_ofList [Std.TransCmp (Scalar.order : α → α → Ordering)] : (ofList α).Lawful where
  latency?_empty _ := rfl
  latency?_push r latency w r' := by
    refine Option.ext fun latency' ↦ ?_
    rw [(holds_ofList _).latency?_eq_some_iff]
    show Waits (LeastLatency.push ⟨r, latency, []⟩ w.1) r' latency' ↔ _
    rw [waits_push_iff w.2]
    split
    · exact Option.some_inj.symm
    · exact (holds_ofList w).latency?_eq_some_iff.symm
  latency?_of_pop_eq_none {w} h r := by
    have hnil : w.1 = [] := takeNext_eq_none_iff.1 (takeNext_of_pop_ofList_eq_none h)
    refine Option.eq_none_iff_forall_ne_some.2 fun latency hr ↦ ?_
    obtain ⟨c, hc, -⟩ := (holds_ofList w).latency?_eq_some_iff.1 hr
    exact List.not_mem_nil (hnil ▸ hc)
  latency?_of_pop {w r latency w'} h := by
    obtain ⟨c, hnext, hr, heq⟩ := takeNext_of_pop_ofList h
    exact (holds_ofList w).latency?_eq_some_iff.2
      ⟨c, (takeNext_perm hnext).mem_iff.2 List.mem_cons_self, hr, heq⟩
  not_precedes_of_pop {w r latency w'} h r' latency' hr' hprecedes := by
    obtain ⟨c, hnext, rfl, rfl⟩ := takeNext_of_pop_ofList h
    obtain ⟨d, hd, rfl, rfl⟩ := (holds_ofList w).latency?_eq_some_iff.1 hr'
    rcases List.mem_cons.1 ((takeNext_perm hnext).mem_iff.1 hd) with rfl | hother
    · exact Candidate.precedes_asymm hprecedes hprecedes
    · exact Candidate.precedes_asymm hprecedes (precedes_of_takeNext w.2 hnext d hother)
  latency?_pop {w r latency w'} h r' := by
    obtain ⟨c, hnext, rfl, rfl⟩ := takeNext_of_pop_ofList h
    refine Option.ext fun latency' ↦ ?_
    rw [(holds_ofList w').latency?_eq_some_iff, waits_iff_of_takeNext w.2 hnext]
    split
    · rename_i hr
      exact iff_of_false (fun hother ↦ hother.1 hr) nofun
    · rename_i hr
      rw [and_iff_right hr, (holds_ofList w).latency?_eq_some_iff]

end Queue

end LeastLatency

end NetOnChip
