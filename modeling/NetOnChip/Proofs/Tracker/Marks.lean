import NetOnChip.Proofs.Tracker.Calls

/-!
# Marked flows

A flow is marked before it is routed again, and listed as affected after that. So the marked flows
are the listed ones as long as all of them can be routed. A flow that cannot be routed is *missed*:
it is marked and not listed, and it stays so until the marks are cleared. That happens before the
flows of another move are routed again, and after a move was committed or taken back. Routing the
flows of a single block again does not clear them.

* `missedBy` tells which flows are missed after a run of calls.
* `rerouteUnmarked_spec` says how far routing flows again comes, and `Misses.answer` what follows
  for the marks, call by call: the marked flows are the listed and the missed ones.
* `marked_of_calls` says this of every run, and what becomes of the missed flows: they are left
  alone when the flows of their block are routed again, even if there are routes for them by then.
-/

namespace NetOnChip

variable {α : Type} [Scalar α]

namespace Tracker

variable {t t' : Tracker α} {p : Placement} {m : Move} {flows missed : List FlowId}

/-! ### Missed flows -/

/-- The first unmarked flow that has no route, where routing flows again stops. -/
def stuck (t : Tracker α) (p : Placement) (flows : List FlowId) : List FlowId :=
  ((unmarked t.marked flows).find? fun f ↦
    !(routeFlow t.traffic t.algorithm t.topology p f).isOk).toList

/-- The flow of a move where routing them again stops. -/
def stuckMoved (t : Tracker α) (m : Move) (p : Placement) : List FlowId :=
  t.settled.stuck p ((m.map (·.block)).flatMap t.traffic.flowsOf)

/-- The missed flows after a call, given those before it. -/
def missedAfter (t : Tracker α) (missed : List FlowId) : Call α → List FlowId
  | .request (.rerouteBlock b p) => missed ++ t.stuck p (t.traffic.flowsOf b)
  | .request (.evaluate m p) | .request (.revert m p) =>
    if t.isRouted then t.stuckMoved m p else missed
  | .request (.commit ..) => []
  | _ => missed

/-- The missed flows after a run of calls, given those before it. -/
def missedBy (t : Tracker α) (missed : List FlowId) : List (Call α) → List FlowId
  | [] => missed
  | c :: calls => (t.answer c).state.missedBy (t.missedAfter missed c) calls

/-- The marked flows are the listed and the missed ones, and none of them is there twice. -/
structure Misses (t : Tracker α) (missed : List FlowId) : Prop where
  /-- No flow is listed twice or missed twice, and no listed flow is missed. -/
  nodup : (t.affected ++ missed).Nodup
  /-- These flows are marked, and no other flow is. -/
  perm : t.marked.Perm (t.affected ++ missed)

namespace Misses

omit [Scalar α] in
theorem of_eq (h : t.Misses missed) (haffected : t'.affected = t.affected)
    (hmarked : t'.marked = t.marked) : t'.Misses missed :=
  ⟨haffected ▸ h.nodup, by rw [haffected, hmarked]; exact h.perm⟩

omit [Scalar α] in
theorem settled (t : Tracker α) : t.settled.Misses [] :=
  ⟨.nil, .nil⟩

omit [Scalar α] in
/-- More flows may be marked, some of which are listed and the others missed. -/
theorem extend (h : t.Misses missed) {done new : List FlowId} (hnodup : (done ++ new).Nodup)
    (hfresh : ∀ f ∈ done ++ new, f ∉ t.marked) (haffected : t'.affected = t.affected ++ done)
    (hmarked : t'.marked = (done ++ new).reverse ++ t.marked) : t'.Misses (missed ++ new) := by
  have hperm : t'.marked.Perm (t'.affected ++ (missed ++ new)) := by
    rw [haffected, hmarked, List.perm_iff_count]
    intro f
    have hcount := h.perm.count_eq f
    simp only [List.count_append, List.count_reverse] at hcount ⊢
    omega
  refine ⟨hperm.nodup_iff.1 ?_, hperm⟩
  rw [hmarked, List.nodup_append']
  refine ⟨List.nodup_reverse.2 hnodup, h.perm.nodup_iff.2 h.nodup, fun f hf ↦ ?_⟩
  exact hfresh f (List.mem_reverse.1 hf)

omit [Scalar α] in
/-- The marked flows are the listed ones if none was missed, and only then. -/
theorem mem_iff_mem_affected_iff (h : t.Misses missed) :
    (∀ f, f ∈ t.marked ↔ f ∈ t.affected) ↔ missed = [] := by
  constructor
  · intro hmirror
    refine List.eq_nil_iff_forall_not_mem.2 fun f hf ↦ ?_
    have hlisted : f ∈ t.affected :=
      (hmirror f).1 (h.perm.mem_iff.2 (List.mem_append_right _ hf))
    exact (List.nodup_append'.1 h.nodup).2.2 hlisted hf
  · rintro rfl f
    rw [h.perm.mem_iff, List.append_nil]

end Misses

/-! ### Routing flows again -/

omit [Scalar α] in
theorem Listed.eq_onLinks (h : t.Listed) :
    t = t.onLinks t.topology t.network.usage t.ledger.table.routes t.affected t.marked := by
  rw [onLinks, ← h.ledger_eq]

/-- **How far routing flows again comes.** It ends with the first flow that has no route, if there
is one. The flows before it are listed and have new routes; it is marked with them. -/
theorem Listed.rerouteUnmarked_spec (h : t.Listed)
    (hp : (rerouteUnmarked p flows t).result.Proper) :
    ∃ done rest, unmarked t.marked flows = done ++ t.stuck p flows ++ rest ∧
      (rerouteUnmarked p flows t).state.affected = t.affected ++ done ∧
      (rerouteUnmarked p flows t).state.marked = (done ++ t.stuck p flows).reverse ++ t.marked ∧
      (rerouteUnmarked p flows t).state.ledger.table.routes =
        Ledger.reassign t.traffic t.algorithm t.topology p (done ++ t.stuck p flows)
          t.ledger.table.routes ∧
      ∀ n, (rerouteUnmarked p flows t).result = .ok n →
        t.stuck p flows = [] ∧ rest = [] ∧ n = done.length := by
  have hcases := rerouteUnmarked_cases (p := p) h.admissible h.size_usage flows t.affected t.marked
  rw [← h.eq_onLinks] at hcases
  rcases hcases with ⟨usage, _, hfound, heq⟩ |
    ⟨done, f, rest, usage, e, hsplit, _, hfound, hfailed, heq⟩ | ⟨_, e, he⟩
  · have hstuck : t.stuck p flows = [] := by
      have hnone : (unmarked t.marked flows).find? (fun f ↦
          !(routeFlow t.traffic t.algorithm t.topology p f).isOk) = none := by
        refine List.find?_eq_none.2 fun f hf ↦ ?_
        obtain ⟨route, hroute⟩ := hfound f hf
        simp [hroute, Except.isOk, Except.toBool]
      rw [stuck, hnone]
      rfl
    refine ⟨unmarked t.marked flows, [], by simp [hstuck], ?_⟩
    rw [heq, hstuck, List.append_nil]
    refine ⟨rfl, rfl, rfl, fun n hn ↦ ⟨rfl, rfl, ?_⟩⟩
    exact (Except.ok.inj hn).symm
  · have hstuck : t.stuck p flows = [f] := by
      have hsome : (unmarked t.marked flows).find? (fun f ↦
          !(routeFlow t.traffic t.algorithm t.topology p f).isOk) = some f := by
        refine List.find?_eq_some_iff_append.2 ⟨?_, done, rest, hsplit, fun g hg ↦ ?_⟩
        · simp [hfailed, Except.isOk, Except.toBool]
        · obtain ⟨route, hroute⟩ := hfound g hg
          simp [hroute, Except.isOk, Except.toBool]
      rw [stuck, hsome]
      rfl
    refine ⟨done, rest, by simp [hstuck, hsplit], ?_⟩
    rw [heq, hstuck]
    refine ⟨rfl, rfl, rfl, fun n hn ↦ ?_⟩
    cases hn
  · exact absurd he (hp e)

theorem Misses.rerouteUnmarked (hm : t.Misses missed) (h : t.Listed)
    (hp : (rerouteUnmarked p flows t).result.Proper) :
    (rerouteUnmarked p flows t).state.Misses (missed ++ t.stuck p flows) := by
  obtain ⟨done, rest, hsplit, haffected, hmarked, _⟩ := h.rerouteUnmarked_spec hp
  have hsub : (done ++ t.stuck p flows).Sublist (unmarked t.marked flows) :=
    hsplit ▸ List.sublist_append_left ..
  refine hm.extend ((nodup_unmarked _ _).sublist hsub) (fun f hf ↦ ?_) haffected hmarked
  exact (mem_unmarked.1 (hsub.subset hf)).2

/-- The marks of a move start from none. -/
theorem Listed.misses_rerouteMoved (h : t.Listed) (hp : (t.rerouteMoved m p).result.Proper) :
    (t.rerouteMoved m p).state.Misses (t.stuckMoved m p) := by
  have hsettled : t.settled.Listed := (lasting_keepsListed.beside t _ _ [] [] h).1
  rw [rerouteMoved_eq] at hp ⊢
  exact (Misses.settled t).rerouteUnmarked hsettled hp

theorem Listed.stuckMoved_of_ok (h : t.Listed) {n : Nat}
    (hn : (t.rerouteMoved m p).result = .ok n) :
    t.stuckMoved m p = [] := by
  have hsettled : t.settled.Listed := (lasting_keepsListed.beside t _ _ [] [] h).1
  rw [rerouteMoved_eq] at hn
  obtain ⟨_, _, _, _, _, _, hok⟩ := hsettled.rerouteUnmarked_spec (hn ▸ Attempt.proper_ok n)
  exact (hok n hn).1

/-! ### Runs -/

theorem Misses.route (hm : t.Misses missed) (p : Placement) : (t.route p).state.Misses missed := by
  rw [Tracker.route]
  split
  · exact hm
  · split
    · refine Outcome.state_ofAttempt (Misses · missed) hm fun h ↦ ?_
      obtain ⟨_, rfl⟩ := exists_current_of_refresh h
      exact hm.of_eq rfl rfl
    · exact hm.of_eq rfl rfl

theorem Misses.storeRoute (hm : t.Misses missed) (f : FlowId) (p : Placement) :
    (Outcome.ofAttempt t (t.storeRoute f p)).state.Misses missed := by
  refine Outcome.state_ofAttempt (Misses · missed) hm fun h ↦ ?_
  obtain ⟨_, _, h⟩ := Attempt.bind_eq_ok_iff.1 h
  obtain ⟨_, _, h⟩ := Attempt.bind_eq_ok_iff.1 h
  cases h
  exact hm.of_eq rfl rfl

theorem Misses.evaluate (hm : t.Misses missed) (h : t.Listed)
    (hp : (t.evaluate m p).result.Proper) :
    (t.evaluate m p).state.Misses (if t.isRouted then t.stuckMoved m p else missed) := by
  by_cases hrouted : t.isRouted = true
  · rw [Tracker.evaluate, ensureRouted, if_pos hrouted, Outcome.ok_andThen] at hp ⊢
    rw [if_pos hrouted]
    have hmoved := h.misses_rerouteMoved (Outcome.proper_of_andThen hp)
    refine Outcome.state_andThen (Misses · _) hmoved fun n ↦ ?_
    refine Outcome.state_ofAttempt (Misses · _) hmoved fun hpropose ↦ ?_
    obtain ⟨_, rfl⟩ := exists_proposed_of_propose hpropose
    exact hmoved.of_eq rfl rfl
  · rw [Tracker.evaluate, ensureRouted, if_neg hrouted, if_neg hrouted]
    exact hm

theorem Misses.revert (hm : t.Misses missed) (h : t.Listed) (hp : (t.revert m p).result.Proper) :
    (t.revert m p).state.Misses (if t.isRouted then t.stuckMoved m p else missed) := by
  by_cases hrouted : t.isRouted = true
  · rw [Tracker.revert, ensureRouted, if_pos hrouted, Outcome.ok_andThen] at hp ⊢
    rw [if_pos hrouted]
    have hmoved := h.misses_rerouteMoved (Outcome.proper_of_andThen hp)
    cases hresult : (t.rerouteMoved m p).result with
    | ok n =>
      -- no flow is missed, and the marks are cleared
      rw [Outcome.andThen, hresult, h.stuckMoved_of_ok hresult]
      exact .settled _
    | error e =>
      rw [Outcome.andThen, hresult]
      exact hmoved
  · rw [Tracker.revert, ensureRouted, if_neg hrouted, if_neg hrouted]
    exact hm

omit [Scalar α] in
/-- Costs that are taken from the routes do not matter. -/
theorem Misses.ofAttempt (hm : t.Misses missed) {β : Type} {x : Attempt α (β × Tracker α)}
    (h : ∀ {b t'}, x = .ok (b, t') → ∃ current, t' = { t with current }) :
    (Outcome.ofAttempt t x).state.Misses missed := by
  refine Outcome.state_ofAttempt (Misses · missed) hm fun hx ↦ ?_
  obtain ⟨_, rfl⟩ := h hx
  exact hm.of_eq rfl rfl

/-- **What a call does to the marks.** -/
theorem Misses.answer (hm : t.Misses missed) (h : t.Listed) {c : Call α}
    (hp : (t.answer c).result.Proper) : (t.answer c).state.Misses (t.missedAfter missed c) := by
  cases c with
  | storeRoute f p => exact hm.storeRoute f p
  | request r =>
    cases r with
    | route p => exact hm.route p
    | reroute f p => exact hm.of_eq rfl rfl
    | rerouteBlock b p => exact hm.rerouteUnmarked h (Outcome.proper_forget.1 hp)
    | evaluate m p => exact hm.evaluate h (Outcome.proper_forget.1 hp)
    | commit d c => exact .settled _
    | revert m p => exact hm.revert h (Outcome.proper_forget.1 hp)
    | refreshAggregateBandwidth => exact hm.ofAttempt exists_current_of_refreshAggregateBandwidth
    | refreshLatency => exact hm.ofAttempt exists_current_of_refreshLatency
    | loadCosts c => exact hm.ofAttempt exists_current_of_loadCosts
    | recompute => exact hm
    | audit c tolerance p => exact hm

theorem Misses.of_calls {calls : List (Call α)} (hcalls : Calls t calls t') (h : t.Listed)
    (hm : t.Misses missed) : t'.Misses (t.missedBy missed calls) := by
  induction hcalls generalizing missed with
  | nil t => exact hm
  | @cons t t' c _ hp _ ih => exact ih (keepsListed_answer t c hp h).1 (hm.answer h hp)

section Start

variable {topology : Topology α} {traffic : Traffic α} {a : Algorithm} {w : Weights α}
  {calls : List (Call α)}

/-- **The marks after any calls.** The marked flows are the listed and the missed ones, each once,
so they are the listed ones exactly if no flow is missed. When the flows of a block are routed
again, the missed ones keep their routes, and success lists and counts the unmarked ones only. -/
theorem marked_of_calls (hcalls : Calls (fresh topology traffic a w) calls t)
    (hmissed : missed = (fresh topology traffic a w).missedBy [] calls) :
    (t.affected ++ missed).Nodup ∧ t.marked.Perm (t.affected ++ missed) ∧
      ((∀ f, f ∈ t.marked ↔ f ∈ t.affected) ↔ missed = []) ∧
      ∀ (b : BlockId) (p : Placement), (t.rerouteBlock b p).result.Proper →
        (∀ f ∈ missed, (t.rerouteBlock b p).state.ledger.table.routes[f.index]? =
          t.ledger.table.routes[f.index]?) ∧
        ∀ n, (t.rerouteBlock b p).result = .ok n →
          n = (unmarked t.marked (t.traffic.flowsOf b)).length ∧
            (t.rerouteBlock b p).state.affected =
              t.affected ++ unmarked t.marked (t.traffic.flowsOf b) := by
  subst hmissed
  have hlisted : t.Listed := (keepsListed_of_calls hcalls listed_fresh).1
  have hm : t.Misses ((fresh topology traffic a w).missedBy [] calls) :=
    .of_calls hcalls listed_fresh ⟨.nil, .nil⟩
  refine ⟨hm.nodup, hm.perm, hm.mem_iff_mem_affected_iff, fun b p hp ↦ ?_⟩
  obtain ⟨done, rest, hsplit, haffected, _, hroutes, hok⟩ := hlisted.rerouteUnmarked_spec hp
  refine ⟨fun f hf ↦ ?_, fun n hn ↦ ?_⟩
  · have hmarked : f ∈ t.marked := hm.perm.mem_iff.2 (List.mem_append_right _ hf)
    have hleft : f ∉ done ++ t.stuck p (t.traffic.flowsOf b) := fun hdone ↦
      (mem_unmarked.1 (hsplit ▸ List.mem_append_left rest hdone)).2 hmarked
    rw [rerouteBlock, hroutes, Ledger.getElem?_reassign]
    simp [hleft]
  · obtain ⟨hstuck, hrest, rfl⟩ := hok n hn
    rw [hstuck, hrest, List.append_nil, List.append_nil] at hsplit
    rw [hsplit]
    exact ⟨rfl, haffected⟩

/-- On a row of three routers: flows are routed, and those of a block are routed again off the
grid. The first of them is marked and missed. -/
theorem marked_of_calls_line :
    ∃ t, Calls Line.tracker
        [.request (.route (Line.placed 1)), .request (.rerouteBlock ⟨1⟩ (Line.placed 3))] t ∧
      t.marked.Perm (t.affected ++ [⟨0⟩]) ∧ ¬ ∀ f, f ∈ t.marked ↔ f ∈ t.affected := by
  have hcalls : Calls Line.tracker
      [.request (.route (Line.placed 1)), .request (.rerouteBlock ⟨1⟩ (Line.placed 3))] _ :=
    .cons (by decide +kernel) (.cons (by decide +kernel) (.nil _))
  obtain ⟨_, hperm, hmirror, _⟩ :=
    marked_of_calls hcalls (show [⟨0⟩] = Line.tracker.missedBy [] _ by decide +kernel)
  exact ⟨_, hcalls, hperm, fun h ↦ absurd (hmirror.1 h) (List.cons_ne_nil _ _)⟩

/-- **A missed flow is left alone.** After the flows of a block could not be routed again off the
grid, they are routed again on the grid. The first of them has a route there, but it is neither
routed again nor counted. -/
theorem marked_missed :
    ∃ t, Calls Line.tracker
        [.request (.route (Line.placed 1)), .request (.rerouteBlock ⟨1⟩ (Line.placed 3))] t ∧
      t.marked = [⟨0⟩] ∧ t.affected = [] ∧
      routeFlow t.traffic t.algorithm t.topology (Line.placed 2) ⟨0⟩ = .ok [⟨0⟩, ⟨2⟩] ∧
      (t.rerouteBlock ⟨1⟩ (Line.placed 2)).result = .ok 1 ∧
      (t.rerouteBlock ⟨1⟩ (Line.placed 2)).state.affected = [⟨1⟩] ∧
      (t.rerouteBlock ⟨1⟩ (Line.placed 2)).state.ledger.table.routes = #[[⟨0⟩], [⟨3⟩, ⟨1⟩]] :=
  ⟨_, .cons (by decide +kernel) (.cons (by decide +kernel) (.nil _)), by decide +kernel,
    by decide +kernel, by decide +kernel, by decide +kernel, by decide +kernel, by decide +kernel⟩

end Start

end Tracker

end NetOnChip
