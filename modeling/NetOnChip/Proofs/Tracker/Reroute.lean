import NetOnChip.Proofs.Placement
import NetOnChip.Proofs.Routing.Flow
import NetOnChip.Proofs.Traffic
import NetOnChip.Tracker

/-!
# Routing the flows of a move again

A ledger that lists some routes goes from these to other ones when flows are routed again
(`Ledger.reroute_cases`), whatever its links are charged for. Of several flows each is routed once,
in the order of first mention (`unmarked`). There are three ends (`rerouteUnmarked_cases`): all of
them get a new route and are listed; or the first failure ends it, and then the flows before it have
new routes and are listed, while it is marked and not listed; or there is a fault, because what was
found is no route over existing links.

`rerouteMoved_cases` puts this together for the flows of the blocks of a move.
-/

namespace NetOnChip

variable {α : Type} [Scalar α]

namespace Tracker

variable {t : Tracker α} {topology : Topology α} {routes : Array Route} {usage : Array α}
  {p : Placement} {f : FlowId} {flows affected marked : List FlowId}

/-- A tracker with given routes and lists of flows, on links that may carry anything: what routing
flows again may change. -/
def onLinks (t : Tracker α) (topology : Topology α) (usage : Array α) (routes : Array Route)
    (affected marked : List FlowId) : Tracker α :=
  { t with
    ledger := ⟨⟨topology, usage⟩, .ofRoutes routes topology.links.size⟩
    affected, marked }

/-- A tracker with given routes and lists of flows, whose links carry what the routes demand. -/
def onRoutes (t : Tracker α) (topology : Topology α) (routes : Array Route)
    (affected marked : List FlowId) : Tracker α :=
  { t with ledger := .ofRoutes t.traffic topology routes, affected, marked }

/-! ### Flows in the order of first mention -/

/-- The flows that are not marked, each in the place where it is first mentioned. -/
def unmarked : (marked flows : List FlowId) → List FlowId
  | _, [] => []
  | marked, f :: flows =>
    if f ∈ marked then unmarked marked flows else f :: unmarked (f :: marked) flows

theorem mem_unmarked {marked : List FlowId} :
    f ∈ unmarked marked flows ↔ f ∈ flows ∧ f ∉ marked := by
  induction flows generalizing marked with
  | nil => simp [unmarked]
  | cons g flows ih =>
    rw [unmarked]
    by_cases hg : g ∈ marked
    · rw [if_pos hg, ih, List.mem_cons]
      constructor
      · exact fun ⟨hf, hmarked⟩ ↦ ⟨.inr hf, hmarked⟩
      · rintro ⟨rfl | hf, hmarked⟩
        · exact absurd hg hmarked
        · exact ⟨hf, hmarked⟩
    · rw [if_neg hg, List.mem_cons, ih, List.mem_cons, List.mem_cons]
      rcases eq_or_ne f g with rfl | hfg
      · simp [hg]
      · simp [hfg]

theorem nodup_unmarked (marked flows : List FlowId) : (unmarked marked flows).Nodup := by
  induction flows generalizing marked with
  | nil => exact .nil
  | cons g flows ih =>
    rw [unmarked]
    split
    · exact ih marked
    · exact List.nodup_cons.2 ⟨fun h ↦ (mem_unmarked.1 h).2 List.mem_cons_self, ih _⟩

/-! ### Routing flows again -/

/-- Routing a flow again is a matter of the ledger. -/
theorem reroute_onLinks :
    (t.onLinks topology usage routes affected marked).reroute f p =
      let o := Ledger.reroute t.traffic t.algorithm p f
        ⟨⟨topology, usage⟩, .ofRoutes routes topology.links.size⟩
      ⟨{ t with ledger := o.state, affected, marked }, o.result⟩ :=
  rfl

/-- What becomes of a flow that is not marked: it is marked, and listed as affected once it has its
new route. -/
theorem rerouteUnmarked_cons (hf : f ∉ marked) :
    rerouteUnmarked p (f :: flows) (t.onLinks topology usage routes affected marked) =
      ((t.onLinks topology usage routes affected (f :: marked)).reroute f p).andThen fun _ t ↦
        (rerouteUnmarked p flows { t with affected := t.affected ++ [f] }).andThen fun n t ↦
          ⟨t, .ok (n + 1)⟩ := by
  rw [rerouteUnmarked]
  exact if_neg hf

/-- **Routing flows again.** Every flow that is not marked has a new route and is listed as
affected; or one of them could not be routed, and then those before it are listed and it is marked
as well; or there is a fault, and what was found for one of them is no route over existing links. -/
theorem rerouteUnmarked_cases (hadm : Admissible t.traffic topology routes)
    (hu : usage.size = topology.links.size) (flows affected marked : List FlowId) :
    (∃ usage',
      Ledger.Follows t.traffic topology routes usage
        (Ledger.reassign t.traffic t.algorithm topology p (unmarked marked flows) routes) usage' ∧
      (∀ f ∈ unmarked marked flows,
        ∃ route, routeFlow t.traffic t.algorithm topology p f = .ok route) ∧
      rerouteUnmarked p flows (t.onLinks topology usage routes affected marked) =
        ⟨t.onLinks topology usage'
            (Ledger.reassign t.traffic t.algorithm topology p (unmarked marked flows) routes)
            (affected ++ unmarked marked flows) ((unmarked marked flows).reverse ++ marked),
          .ok (unmarked marked flows).length⟩) ∨
    (∃ done f rest usage' e, unmarked marked flows = done ++ f :: rest ∧
      Ledger.Follows t.traffic topology routes usage
        (Ledger.reassign t.traffic t.algorithm topology p (done ++ [f]) routes) usage' ∧
      (∀ g ∈ done, ∃ route, routeFlow t.traffic t.algorithm topology p g = .ok route) ∧
      routeFlow t.traffic t.algorithm topology p f = .error (.error e) ∧
      rerouteUnmarked p flows (t.onLinks topology usage routes affected marked) =
        ⟨t.onLinks topology usage'
            (Ledger.reassign t.traffic t.algorithm topology p (done ++ [f]) routes)
            (affected ++ done) ((done ++ [f]).reverse ++ marked),
          .error (.error e)⟩) ∨
    (∃ f ∈ unmarked marked flows,
        ¬ Ledger.Sound topology (routeFlow t.traffic t.algorithm topology p f)) ∧
      ∃ e, (rerouteUnmarked p flows (t.onLinks topology usage routes affected marked)).result =
        .error (.fault e) := by
  induction flows generalizing routes usage affected marked with
  | nil =>
    refine .inl ⟨usage, ?_, by simp [unmarked], ?_⟩ <;> rw [unmarked, Ledger.reassign_nil]
    · exact .refl hadm usage
    · simp [rerouteUnmarked]
  | cons f flows ih =>
    by_cases hmarked : f ∈ marked
    · have hskip : rerouteUnmarked p (f :: flows)
          (t.onLinks topology usage routes affected marked) =
          rerouteUnmarked p flows (t.onLinks topology usage routes affected marked) := by
        rw [rerouteUnmarked]
        exact if_pos hmarked
      rw [unmarked, if_pos hmarked, hskip]
      exact ih hadm hu affected marked
    · rw [unmarked, if_neg hmarked, rerouteUnmarked_cons hmarked, reroute_onLinks]
      rcases Ledger.reroute_cases (a := t.algorithm) (p := p) hadm hu f
        with ⟨old, usage₁, hold, hfollows₁, heq₁⟩ | ⟨hsound, e, he⟩
      · -- the flow comes first, and the others are routed again from where it leaves the routes
        obtain ⟨routes₁, hroutes₁⟩ : ∃ routes₁, routes.setIfInBounds f.index
            (Ledger.newRoute t.traffic t.algorithm topology p f old) = routes₁ := ⟨_, rfl⟩
        have hreassign : ∀ flows,
            Ledger.reassign t.traffic t.algorithm topology p (f :: flows) routes =
              Ledger.reassign t.traffic t.algorithm topology p flows routes₁ :=
          fun flows ↦ hroutes₁ ▸ Ledger.reassign_cons hold
        rw [hroutes₁] at hfollows₁ heq₁
        simp only [heq₁, hreassign]
        rcases hroute : routeFlow t.traffic t.algorithm topology p f with (e | e) | route
        · refine .inr (.inl ⟨[], f, _, usage₁, e, rfl, ?_, by simp, hroute, ?_⟩) <;>
            rw [List.nil_append, hreassign, Ledger.reassign_nil]
          · exact hfollows₁
          · simp [Tracker.onLinks, Except.map]
        · refine .inr (.inr ⟨⟨f, List.mem_cons_self, ?_⟩, e, rfl⟩)
          rw [hroute]
          exact id
        · have hrest : ((⟨{ t with
                  ledger := ⟨⟨topology, usage₁⟩, .ofRoutes routes₁ topology.links.size⟩
                  affected, marked := f :: marked },
                (Except.ok route : Attempt α Route).map fun _ ↦ ()⟩ :
                Outcome (Tracker α) α Unit).andThen fun _ t ↦
              (rerouteUnmarked p flows { t with affected := t.affected ++ [f] }).andThen fun n t ↦
                ⟨t, .ok (n + 1)⟩) =
              (rerouteUnmarked p flows (t.onLinks topology usage₁ routes₁ (affected ++ [f])
                (f :: marked))).andThen fun n t ↦ ⟨t, .ok (n + 1)⟩ := rfl
          rw [hrest]
          rcases ih hfollows₁.admissible (hfollows₁.size_eq.trans hu) (affected ++ [f])
              (f :: marked)
            with ⟨usage₂, hfollows₂, hfound, heq₂⟩ |
              ⟨done, g, rest, usage₂, e, hsplit, hfollows₂, hfound, hfailed, heq₂⟩ |
              ⟨⟨g, hg, hsound⟩, e, he⟩
          · refine .inl ⟨usage₂, hfollows₁.trans hfollows₂,
              List.forall_mem_cons.2 ⟨⟨route, hroute⟩, hfound⟩, ?_⟩
            rw [heq₂]
            simp
          · refine .inr (.inl ⟨f :: done, g, rest, usage₂, e, by rw [hsplit, List.cons_append], ?_,
              List.forall_mem_cons.2 ⟨⟨route, hroute⟩, hfound⟩, hfailed, ?_⟩) <;>
              rw [List.cons_append, hreassign]
            · exact hfollows₁.trans hfollows₂
            · rw [heq₂]
              simp
          · refine .inr (.inr ⟨⟨g, List.mem_cons_of_mem f hg, hsound⟩, e, ?_⟩)
            simp only [Outcome.andThen, he]
      · refine .inr (.inr ⟨⟨f, List.mem_cons_self, hsound⟩, e, ?_⟩)
        simp only [Outcome.andThen, he]

/-! ### The flows of several blocks -/

theorem traffic_rerouteUnmarked (p : Placement) (flows : List FlowId) (t : Tracker α) :
    (rerouteUnmarked p flows t).state.traffic = t.traffic := by
  induction flows generalizing t with
  | nil => rfl
  | cons f flows ih =>
    rw [rerouteUnmarked]
    split
    · exact ih t
    · refine Outcome.state_andThen (fun t' : Tracker α ↦ t'.traffic = t.traffic) rfl fun _ ↦ ?_
      exact Outcome.state_andThen (fun t' : Tracker α ↦ t'.traffic = t.traffic) (ih _) fun _ ↦ ih _

theorem rerouteUnmarked_append (p : Placement) (first second : List FlowId) (t : Tracker α) :
    rerouteUnmarked p (first ++ second) t =
      (rerouteUnmarked p first t).andThen fun n t ↦
        (rerouteUnmarked p second t).andThen fun k t ↦ ⟨t, .ok (n + k)⟩ := by
  induction first generalizing t with
  | nil => simp [rerouteUnmarked]
  | cons f first ih =>
    rw [List.cons_append, rerouteUnmarked, rerouteUnmarked]
    split
    · exact ih t
    · simp only [ih, Outcome.andThen_assoc, Outcome.ok_andThen, Nat.add_right_comm]

/-- Blocks are dealt with one after the other, which comes to the same as all their flows in a row.
-/
theorem rerouteBlocks_eq (p : Placement) (blocks : List BlockId) (t : Tracker α) :
    rerouteBlocks p blocks t = rerouteUnmarked p (blocks.flatMap t.traffic.flowsOf) t := by
  induction blocks generalizing t with
  | nil => rfl
  | cons b blocks ih =>
    rw [rerouteBlocks, List.flatMap_cons, rerouteUnmarked_append, rerouteBlock]
    refine Outcome.andThen_congr fun n ↦ ?_
    rw [ih, traffic_rerouteUnmarked]

/-! ### The flows of a move -/

section Moved

variable {traffic : Traffic α} {a : Algorithm} {m : Move}

/-- The flows of the blocks of a move, each in the place where it is first mentioned. -/
def movedFlows (traffic : Traffic α) (m : Move) : List FlowId :=
  unmarked [] ((m.map (·.block)).flatMap traffic.flowsOf)

omit [Scalar α] in
theorem mem_movedFlows (hb : traffic.Built) :
    f ∈ movedFlows traffic m ↔
      ∃ r ∈ m, ∃ flow, traffic.flow f = .ok flow ∧
        (flow.source = r.block ∨ flow.sink = r.block) := by
  simp [movedFlows, mem_unmarked, List.mem_flatMap, hb.mem_flowsOf_iff]

omit [Scalar α] in
theorem lt_of_mem_movedFlows (hb : traffic.Built) (hf : f ∈ movedFlows traffic m) :
    f.index < traffic.flows.size := by
  obtain ⟨_, _, flow, hflow, _⟩ := (mem_movedFlows hb).1 hf
  exact (Array.getElem?_eq_some_iff.1 (Attempt.entry_eq_ok_iff.1 hflow)).1

omit [Scalar α] in
/-- A move concerns as many flows as start or end at one of its blocks. -/
theorem length_movedFlows (hb : traffic.Built) (m : Move) :
    (movedFlows traffic m).length =
      (traffic.flowIds.filter fun f ↦ m.any fun r ↦ traffic.touches r.block f).length := by
  have hnodup : (traffic.flowIds.filter fun f ↦ m.any fun r ↦ traffic.touches r.block f).Nodup :=
    (Id.nodup_range _).filter _
  refine ((List.perm_ext_iff_of_nodup (nodup_unmarked [] _) hnodup).2 fun f ↦ ?_).length_eq
  rw [← movedFlows, mem_movedFlows hb, List.mem_filter, List.any_eq_true]
  simp only [Traffic.touches_iff]
  refine (and_iff_right_of_imp ?_).symm
  rintro ⟨_, _, flow, hflow, _⟩
  exact Id.mem_range.2 (Array.getElem?_eq_some_iff.1 (Attempt.entry_eq_ok_iff.1 hflow)).1

/-- A flow that starts and ends elsewhere is routed as before the move. -/
theorem routeFlow_apply (hb : traffic.Built) (hf : f ∉ movedFlows traffic m) :
    routeFlow traffic a topology (p.apply m) f = routeFlow traffic a topology p f := by
  rw [mem_movedFlows hb] at hf
  rw [routeFlow, routeFlow]
  cases hflow : traffic.flow f with
  | error e => rfl
  | ok flow =>
    have hplaced : ∀ b, b = flow.source ∨ b = flow.sink →
        placedRouter topology (p.apply m) b = placedRouter topology p b := by
      intro b hbflow
      have htile : (p.apply m).tile? b = p.tile? b := by
        refine Placement.tile?_apply fun r hr hrb ↦ hf ⟨r, hr, flow, hflow, ?_⟩
        exact hbflow.imp (fun h ↦ (hrb.trans h).symm) fun h ↦ (hrb.trans h).symm
      rw [placedRouter, placedRouter, Placement.locate, Placement.locate, htile]
    rw [Attempt.ok_bind, Attempt.ok_bind, hplaced _ (.inl rfl), hplaced _ (.inr rfl)]

end Moved

/-- Blocks are dealt with one after the other, from no flow listed or marked on. -/
theorem rerouteMoved_eq (t : Tracker α) (m : Move) (p : Placement) :
    t.rerouteMoved m p =
      rerouteUnmarked p ((m.map (·.block)).flatMap t.traffic.flowsOf) t.settled :=
  rerouteBlocks_eq ..

/-- **Routing the flows of a move again.** All of them have new routes; or one of them could not be
routed, and those before it have; or there is a fault, and what was found for one of them is no
route over existing links. -/
theorem rerouteMoved_cases (hadm : Admissible t.traffic topology routes)
    (hu : usage.size = topology.links.size) (m : Move) (affected marked : List FlowId) :
    (∃ usage',
      Ledger.Follows t.traffic topology routes usage
        (Ledger.reassign t.traffic t.algorithm topology p (movedFlows t.traffic m) routes)
        usage' ∧
      (∀ f ∈ movedFlows t.traffic m,
        ∃ route, routeFlow t.traffic t.algorithm topology p f = .ok route) ∧
      (t.onLinks topology usage routes affected marked).rerouteMoved m p =
        ⟨t.onLinks topology usage'
            (Ledger.reassign t.traffic t.algorithm topology p (movedFlows t.traffic m) routes)
            (movedFlows t.traffic m) (movedFlows t.traffic m).reverse,
          .ok (movedFlows t.traffic m).length⟩) ∨
    (∃ done f rest usage' e, movedFlows t.traffic m = done ++ f :: rest ∧
      Ledger.Follows t.traffic topology routes usage
        (Ledger.reassign t.traffic t.algorithm topology p (done ++ [f]) routes) usage' ∧
      (∀ g ∈ done, ∃ route, routeFlow t.traffic t.algorithm topology p g = .ok route) ∧
      routeFlow t.traffic t.algorithm topology p f = .error (.error e) ∧
      (t.onLinks topology usage routes affected marked).rerouteMoved m p =
        ⟨t.onLinks topology usage'
            (Ledger.reassign t.traffic t.algorithm topology p (done ++ [f]) routes) done
            (done ++ [f]).reverse,
          .error (.error e)⟩) ∨
    (∃ f ∈ movedFlows t.traffic m,
        ¬ Ledger.Sound topology (routeFlow t.traffic t.algorithm topology p f)) ∧
      ∃ e, ((t.onLinks topology usage routes affected marked).rerouteMoved m p).result =
        .error (.fault e) := by
  have hmoved : (t.onLinks topology usage routes affected marked).rerouteMoved m p =
      rerouteUnmarked p ((m.map (·.block)).flatMap t.traffic.flowsOf)
        (t.onLinks topology usage routes [] []) := rerouteMoved_eq ..
  rw [hmoved]
  simpa [movedFlows] using rerouteUnmarked_cases (p := p) hadm hu
    ((m.map (·.block)).flatMap t.traffic.flowsOf) [] []

end Tracker

end NetOnChip
