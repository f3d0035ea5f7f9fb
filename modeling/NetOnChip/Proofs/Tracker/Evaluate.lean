import NetOnChip.Proofs.Route.Confluence
import NetOnChip.Proofs.Tracker.Marks
import NetOnChip.Proofs.Traffic.Entries

/-!
# What a move touches

Evaluating a move routes the flows of its blocks again. A flow may be met several times, when a
block is listed twice or when both of its blocks are moved, and it is routed again where it is met
first.
`evaluate_exact` says what that comes to, for every move and every placement, after any calls:

* the flows that are affected are those that start or end at a block of the move, each once and in
  the order in which they are met first (`unmarked_eq`, `pairwise_eraseDups`);
* they have the routes for the placement, and all other flows keep theirs;
* a link that is on no route of an affected flow, neither an old nor a new one, carries what it
  carried (`Listed.usageOf_rerouteUnmarked`). The routes are exchanged one after the other, so this
  is by induction on the flows, from what one exchange leaves alone (`Listed.reroute_frame`);
* the current cost terms stay, and the answer adds up how the terms of the affected flows differ
  from them, in this order.
-/

namespace NetOnChip

variable {α : Type} [Scalar α]

namespace Tracker

variable {t : Tracker α} {p : Placement} {m : Move} {d : Delta α} {flows marked : List FlowId}
  {k : LinkId}

/-! ### First encounters -/

/-- The flows that are not marked are routed again where they are met first. -/
theorem unmarked_eq (marked flows : List FlowId) :
    unmarked marked flows = (flows.filter (· ∉ marked)).eraseDups := by
  induction flows generalizing marked with
  | nil => rfl
  | cons f flows ih =>
    rw [unmarked]
    by_cases hf : f ∈ marked
    · rw [if_pos hf, ih, List.filter_cons_of_neg (by simpa using hf)]
    · rw [if_neg hf, ih, List.filter_cons_of_pos (by simpa using hf), List.eraseDups_cons,
        List.filter_filter]
      congr 2
      refine List.filter_congr fun g _ ↦ ?_
      rw [Bool.eq_iff_iff]
      simp [not_or]

/-- The flows of a move in the order in which they are met: block by block, and in the order of
their registration for each of them. -/
def metFlows (traffic : Traffic α) (m : Move) : List FlowId :=
  m.flatMap fun r ↦ traffic.flowIds.filter (traffic.touches r.block)

omit [Scalar α] in
theorem movedFlows_eq {traffic : Traffic α} (hb : traffic.Built) (m : Move) :
    movedFlows traffic m = (metFlows traffic m).eraseDups := by
  have hmet : (m.map (·.block)).flatMap traffic.flowsOf = metFlows traffic m := by
    rw [List.flatMap_map]
    exact List.flatMap_congr fun r _ ↦ hb.flowsOf_eq r.block
  rw [movedFlows, unmarked_eq, hmet]
  simp

/-! ### Links that are not touched -/

/-- **Routing a flow again** exchanges its route and leaves the links alone that neither of the two
routes takes. -/
theorem Listed.reroute_frame {f : FlowId} (h : t.Listed) (hp : (t.reroute f p).result.Proper) :
    ∃ old, t.ledger.table.routes[f.index]? = some old ∧
      (t.reroute f p).state.Listed ∧ t.Alike (t.reroute f p).state ∧
      (t.reroute f p).state.ledger.table.routes = t.ledger.table.routes.setIfInBounds f.index
        (Ledger.newRoute t.traffic t.algorithm t.topology p f old) ∧
      ∀ k ∉ old ++ Ledger.newRoute t.traffic t.algorithm t.topology p f old,
        (t.reroute f p).state.network.usageOf k = t.network.usageOf k := by
  obtain ⟨old, hr, ho⟩ := Ledger.reroute_of_proper h.table_eq h.admissible.lt_links hp
  obtain ⟨h₁, halike, -⟩ := lasting_keepsListed.reroute t f p hp h
  exact ⟨old, hr.getElem?_eq, h₁, halike, congrArg RouteTable.routes ho.table_eq,
    ho.settledFrom.frame⟩

/-- **Routing flows again** leaves a link alone that no route of theirs takes, neither an old nor a
new one. -/
theorem Listed.usageOf_rerouteUnmarked (h : t.Listed)
    (hp : (rerouteUnmarked p flows t).result.Proper)
    (hk : ∀ f ∈ unmarked t.marked flows, ∀ old, t.ledger.table.routes[f.index]? = some old →
      k ∉ old ++ Ledger.newRoute t.traffic t.algorithm t.topology p f old) :
    (rerouteUnmarked p flows t).state.network.usageOf k = t.network.usageOf k := by
  induction flows generalizing t with
  | nil => rfl
  | cons f flows ih =>
    rw [unmarked] at hk
    rw [rerouteUnmarked] at hp ⊢
    by_cases hf : f ∈ t.marked
    · rw [if_pos hf] at hk hp ⊢
      exact ih h hp hk
    · rw [if_neg hf] at hk hp ⊢
      set marked : Tracker α := { t with marked := f :: t.marked } with hmarked
      have hlisted : marked.Listed := (lasting_keepsListed.beside t _ _ _ _ h).1
      obtain ⟨old, hold, h₁, halike, hroutes, hframe⟩ :=
        hlisted.reroute_frame (Outcome.proper_of_andThen hp)
      have hframe : (marked.reroute f p).state.network.usageOf k = t.network.usageOf k :=
        hframe k (hk f List.mem_cons_self old hold)
      cases hresult : (marked.reroute f p).result with
      | error e => simpa only [Outcome.andThen, hresult] using hframe
      | ok =>
        rw [Outcome.andThen, hresult] at hp ⊢
        set t₁ : Tracker α := { (marked.reroute f p).state with
          affected := (marked.reroute f p).state.affected ++ [f] } with ht₁
        have hlisted₁ : t₁.Listed := (lasting_keepsListed.beside _ _ _ _ _ h₁).1
        have halike₁ : t.Alike t₁ :=
          ⟨halike.traffic_eq, halike.algorithm_eq, halike.weights_eq, halike.topology_eq⟩
        have hroutes₁ : t₁.ledger.table.routes = t.ledger.table.routes.setIfInBounds f.index
            (Ledger.newRoute t.traffic t.algorithm t.topology p f old) := hroutes
        have hrest : (rerouteUnmarked p flows t₁).result.Proper := Outcome.proper_of_andThen hp
        have hlater :
            (rerouteUnmarked p flows t₁).state.network.usageOf k = t.network.usageOf k := by
          refine (ih hlisted₁ hrest fun g hg old' hold' ↦ ?_).trans hframe
          -- a flow that comes later still has the route that it had
          have hgf : f.index ≠ g.index := fun e ↦
            (mem_unmarked.1 hg).2 (Id.ext e ▸ List.mem_cons_self)
          rw [hroutes₁, Array.getElem?_setIfInBounds_ne hgf] at hold'
          rw [halike₁.traffic_eq, halike₁.algorithm_eq, halike₁.topology_eq]
          exact hk g (List.mem_cons_of_mem f hg) old' hold'
        exact Outcome.state_andThen (fun t' : Tracker α ↦ t'.network.usageOf k = _) hlater
          fun _ ↦ hlater

/-! ### Evaluating a move -/

/-- A tracker after a move was evaluated whose flows have some new cost terms. -/
def touchedBy (t : Tracker α) (m : Move) (p : Placement) (usage : Array α)
    (new : FlowId → CostTerms α) : Tracker α :=
  { t.onLinks t.topology usage
      (Ledger.reassign t.traffic t.algorithm t.topology p (movedFlows t.traffic m)
        t.ledger.table.routes)
      (movedFlows t.traffic m) (movedFlows t.traffic m).reverse with
    proposed := overwrite new (movedFlows t.traffic m) t.proposed }

section Touched

variable {usage : Array α} {new : FlowId → CostTerms α} {f : FlowId}

/-- A flow of the move has its new route. -/
theorem routeOf_touchedBy_of_mem {old : Route} (hf : f ∈ movedFlows t.traffic m)
    (hold : t.ledger.table.routes[f.index]? = some old) :
    (t.touchedBy m p usage new).routeOf f =
      .ok (Ledger.newRoute t.traffic t.algorithm t.topology p f old) := by
  refine Attempt.entry_eq_ok_iff.2 ((Ledger.getElem?_reassign f).trans ?_)
  rw [hold, Option.map_some, if_pos hf]

/-- The other flows have the routes that they had. -/
theorem routeOf_touchedBy_of_not_mem (hf : f ∉ movedFlows t.traffic m) :
    (t.touchedBy m p usage new).routeOf f = t.routeOf f := by
  have hroute : (t.touchedBy m p usage new).ledger.table.routes[f.index]? =
      t.ledger.table.routes[f.index]? := by
    refine (Ledger.getElem?_reassign f).trans ?_
    simp only [if_neg hf, Option.map_id_fun', id]
  rw [routeOf, routeOf, RouteTable.route, RouteTable.route, Attempt.entry, Attempt.entry, hroute]

end Touched

/-- **Evaluating a move.** If it succeeds then every flow of the move has a new route and new cost
terms, and the change is that of these terms. -/
theorem Listed.evaluate_eq_ok (h : t.Listed) (hd : (t.evaluate m p).result = .ok d) :
    ∃ (usage : Array α) (new old : FlowId → CostTerms α),
      (t.evaluate m p).state = t.touchedBy m p usage new ∧
      d = (movedFlows t.traffic m).foldl (fun d f ↦ exchange (new f) (old f) d)
        { Delta.none with rerouted := (movedFlows t.traffic m).length } ∧
      (∀ f ∈ movedFlows t.traffic m,
        (∃ route, routeFlow t.traffic t.algorithm t.topology p f = .ok route) ∧
        (t.touchedBy m p usage new).costTerms f = .ok (new f) ∧
        t.current[f.index]? = some (old f)) ∧
      ∀ k, (∀ f ∈ movedFlows t.traffic m, ∀ old, t.ledger.table.routes[f.index]? = some old →
          k ∉ old ++ Ledger.newRoute t.traffic t.algorithm t.topology p f old) →
        (t.touchedBy m p usage new).network.usageOf k = t.network.usageOf k := by
  have hrouted : t.isRouted = true := by
    by_contra hnew
    rw [evaluate, ensureRouted, if_neg hnew] at hd
    cases hd
  have hevaluate : t.evaluate m p = (t.rerouteMoved m p).andThen fun n t ↦
      .ofAttempt t (t.propose t.affected { Delta.none with rerouted := n }) := by
    rw [evaluate, ensureRouted, if_pos hrouted, Outcome.ok_andThen]
  rw [hevaluate] at hd ⊢
  have hcases := rerouteMoved_cases (p := p) h.admissible h.size_usage m t.affected t.marked
  rw [← h.eq_onLinks] at hcases
  rcases hcases with ⟨usage, -, hfound, heq⟩ | ⟨_, _, _, _, e, -, -, -, -, heq⟩ | ⟨-, e, he⟩
  · rw [heq, Outcome.ok_andThen] at hd ⊢
    set t₁ := t.onLinks t.topology usage (Ledger.reassign t.traffic t.algorithm t.topology p
      (movedFlows t.traffic m) t.ledger.table.routes) (movedFlows t.traffic m)
      (movedFlows t.traffic m).reverse with ht₁
    have hpropose := Outcome.eq_ok_of_ofAttempt hd
    have : Nonempty (CostTerms α) := ⟨0⟩
    choose! new old hterms using exists_terms_of_propose hpropose
    have hpropose' := propose_eq (movedFlows t.traffic m) (fun f hf ↦ (hterms f hf).1)
      (fun f hf ↦ (hterms f hf).2) { Delta.none with rerouted := (movedFlows t.traffic m).length }
    obtain ⟨rfl, hstate⟩ := Prod.mk.inj (Except.ok.inj (hpropose.symm.trans hpropose'))
    refine ⟨usage, new, old, hstate, rfl, fun f hf ↦ ⟨hfound f hf, hterms f hf⟩, fun k hk ↦ ?_⟩
    have hsettled : t.settled.Listed := (lasting_keepsListed.beside t _ _ [] [] h).1
    have hp : (rerouteUnmarked p ((m.map (·.block)).flatMap t.traffic.flowsOf)
        t.settled).result.Proper := by
      rw [← rerouteMoved_eq, heq]
      exact Attempt.proper_ok _
    have hframe := hsettled.usageOf_rerouteUnmarked hp hk
    rwa [← rerouteMoved_eq, heq] at hframe
  · rw [heq] at hd
    cases hd
  · rw [Outcome.andThen, he] at hd
    cases hd

section Start

variable {n : Network α} {traffic : Traffic α} {a : Algorithm} {w : Weights α}
  {calls : List (Call α)}

/-- **What a move touches.** After any calls, and for every move and every placement, suppose that
evaluating the move succeeds.

* The flows that are affected are those that start or end at a block of the move, each once and in
  the order in which they are first met. The answer counts them.
* Each of them has the route that is found for it, and every other flow has the route that it had.
* The current cost terms are as before, and so is the usage of every link that is on no route of an
  affected flow, neither on an old nor on a new one.
* Both terms of the answer add up, from zero on and in this order, how the cost terms of the
  affected flows differ from the current ones. -/
theorem evaluate_exact (hn : n.usage.size = n.topology.links.size) (hb : traffic.Built)
    (hcalls : Calls (start n traffic a w) calls t) (hd : (t.evaluate m p).result = .ok d) :
    let t' := (t.evaluate m p).state
    (t'.affected.Nodup ∧
      (∀ f, f ∈ t'.affected ↔ ∃ r ∈ m, ∃ flow, traffic.flow f = .ok flow ∧
        (flow.source = r.block ∨ flow.sink = r.block)) ∧
      (t'.affected.Pairwise fun f g ↦
        (metFlows traffic m).idxOf f < (metFlows traffic m).idxOf g) ∧
      d.rerouted = t'.affected.length) ∧
    ((∀ f ∈ t'.affected, ∃ route, routeFlow traffic a n.topology p f = .ok route ∧
        t'.routeOf f = .ok route) ∧
      ∀ f ∉ t'.affected, t'.routeOf f = t.routeOf f) ∧
    (t'.current = t.current ∧ t'.topology = n.topology ∧
      ∀ k : LinkId, (∀ f ∈ t'.affected, ∀ route,
          t.routeOf f = .ok route ∨ t'.routeOf f = .ok route → k ∉ route) →
        t'.network.usageOf k = t.network.usageOf k) ∧
    ∃ new old : FlowId → CostTerms α,
      (∀ f ∈ t'.affected, t'.costTerms f = .ok (new f) ∧ t.current[f.index]? = some (old f)) ∧
      d.aggregateBandwidth = total (t'.affected.map fun f ↦
        (new f).aggregateBandwidth - (old f).aggregateBandwidth) ∧
      d.latency = total (t'.affected.map fun f ↦ (new f).latency - (old f).latency) := by
  intro t'
  obtain ⟨h, halike, -⟩ := keepsListed_of_calls hcalls (listed_start hn)
  obtain rfl : t.traffic = traffic := halike.traffic_eq
  obtain rfl : t.algorithm = a := halike.algorithm_eq
  have htopology : t.topology = n.topology := halike.topology_eq
  obtain ⟨usage, new, old, hstate, hchange, hflows, hframe⟩ := h.evaluate_eq_ok hd
  have haffected : t'.affected = movedFlows t.traffic m := congrArg Tracker.affected hstate
  have hnew : ∀ {f old}, f ∈ movedFlows t.traffic m → t.ledger.table.routes[f.index]? = some old →
      t'.routeOf f = .ok (Ledger.newRoute t.traffic t.algorithm t.topology p f old) :=
    fun hf hold ↦ (congrArg (routeOf · _) hstate).trans (routeOf_touchedBy_of_mem hf hold)
  simp only [haffected, ← htopology]
  refine ⟨⟨nodup_unmarked [] _, fun f ↦ mem_movedFlows hb,
      movedFlows_eq hb m ▸ pairwise_eraseDups _, ?_⟩, ⟨fun f hf ↦ ?_, fun f hf ↦ ?_⟩,
    ⟨(congrArg Tracker.current hstate).trans rfl, (congrArg Tracker.topology hstate).trans rfl,
      fun k hk ↦ ?_⟩,
    new, old, fun f hf ↦ ?_, ?_, ?_⟩
  · rw [hchange, rerouted_foldl_exchange]
  · obtain ⟨⟨route, hroute⟩, -⟩ := hflows f hf
    have hlt : f.index < t.ledger.table.routes.size :=
      h.admissible.size_eq ▸ lt_of_mem_movedFlows hb hf
    refine ⟨route, hroute, (hnew hf (Array.getElem?_eq_getElem hlt)).trans ?_⟩
    rw [Ledger.newRoute_of_eq_ok hroute]
  · exact (congrArg (routeOf · f) hstate).trans (routeOf_touchedBy_of_not_mem hf)
  · refine (congrArg (·.network.usageOf k) hstate).trans (hframe k fun f hf old hold ↦ ?_)
    rw [List.mem_append, not_or]
    exact ⟨hk f hf old (.inl (Attempt.entry_eq_ok_iff.2 hold)), hk f hf _ (.inr (hnew hf hold))⟩
  · exact ⟨(congrArg (costTerms · f) hstate).trans (hflows f hf).2.1, (hflows f hf).2.2⟩
  · rw [hchange, aggregateBandwidth_foldl_exchange]
  · rw [hchange, latency_foldl_exchange]

/-- On a row of three routers, whose links carry something from the start: a move lists a block
twice, the block at the other end of both flows, and one that is no router block. Each flow is
routed again once. -/
theorem evaluate_exact_line :
    let m : Move := Line.shift 1 2 ++
      [⟨⟨7⟩, ⟨5, 0, 0⟩, ⟨6, 0, 0⟩⟩, ⟨⟨0⟩, ⟨0, 0, 0⟩, ⟨0, 0, 0⟩⟩] ++ Line.shift 1 2
    ∃ t, Calls (start Line.loaded Line.traffic .fewestHops Line.weights)
        [.request (.route (Line.placed 1))] t ∧
      (t.evaluate m (Line.placed 2)).result = .ok ⟨.number 5, .number 6, 2⟩ ∧
      (t.evaluate m (Line.placed 2)).state.affected.Nodup ∧
      2 = (t.evaluate m (Line.placed 2)).state.affected.length ∧
      (t.evaluate m (Line.placed 2)).state.current = t.current := by
  intro m
  have hcalls : Calls (start Line.loaded Line.traffic .fewestHops Line.weights)
      [.request (.route (Line.placed 1))] _ := .cons (by decide +kernel) (.nil _)
  have hd : ((((start Line.loaded Line.traffic .fewestHops Line.weights).answer
      (.request (.route (Line.placed 1)))).state).evaluate m (Line.placed 2)).result =
        .ok ⟨.number 5, .number 6, 2⟩ := by decide +kernel
  obtain ⟨⟨hnodup, -, -, hlength⟩, -, ⟨hcurrent, -⟩, -⟩ :=
    evaluate_exact rfl Line.built_traffic hcalls hd
  exact ⟨_, hcalls, hd, hnodup, hlength, hcurrent⟩

end Start

end Tracker

end NetOnChip
