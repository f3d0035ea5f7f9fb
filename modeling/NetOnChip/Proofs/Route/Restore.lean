import NetOnChip.Proofs.Route.Edits

/-!
# Routing a flow again without finding a route

A flow is taken off its links before it is routed again. If no route is found then it is put back by
storing and charging its old route, and the links of this route are settled
(`Ledger.reroute_eq_fail`). What was done in between leaves no trace in the table, because a table
is determined by its routes. Nor does it in the usages: a link that the route does not take is never
charged, and on the others the residue of taking a bandwidth off and adding it again is overwritten
(`Ledger.settle_eq_ok`). So all of it is as before, except that the links of the route are settled
if they were not (`Ledger.reroute_failed`).

Nothing is assumed of the topology, of the number of flows or of what the links carry.
-/

namespace NetOnChip

variable {α : Type}

/-! ### Tables after edits that succeed -/

namespace RouteTable

variable {routes : Array Route} {links : Nat} {t : RouteTable} {es : List Edit}

/-- An edit that succeeds is over existing flows and links. -/
theorem within_of_edit_eq_ok {e : Edit} {old : Route}
    (h : ((ofRoutes routes links).edit e : Attempt α (Route × RouteTable)) = .ok (old, t)) :
    e.Within routes.size links := by
  have hreplace : ((ofRoutes routes links).replace e.flow e.route :
      Attempt α (Route × RouteTable)) = .ok (old, t) := by
    cases e <;> exact h
  obtain ⟨hold, hroute⟩ := lt_of_replace_eq_ok hreplace
  exact ⟨(Array.getElem?_eq_some_iff.1 hold).1, hroute⟩

/-- Edits that succeed are over existing flows and links. -/
theorem within_of_edits_eq_ok (hover : Over links routes)
    (h : (edits es (ofRoutes routes links) : Attempt α RouteTable) = .ok t) :
    ∀ e ∈ es, e.Within routes.size links := by
  induction es generalizing routes with
  | nil => exact List.forall_mem_nil _
  | cons e es ih =>
    rw [edits, List.foldlM_cons] at h
    obtain ⟨t₁, hfirst, hrest⟩ := Attempt.bind_eq_ok_iff.1 h
    obtain ⟨⟨old, t₂⟩, hedit, -⟩ := Attempt.bind_eq_ok_iff.1 hfirst
    have he : e.Within routes.size links := within_of_edit_eq_ok hedit
    obtain ⟨_, -, hedit'⟩ := edit_ofRoutes (α := α) he hover
    rw [hedit'] at hfirst
    obtain rfl := Except.ok.inj hfirst
    have hes := ih (hover.set e.flow he.lt_links) hrest
    rw [Array.size_setIfInBounds] at hes
    exact List.forall_mem_cons.2 ⟨he, hes⟩

/-- A table that came about by edits is that of some routes over existing links. -/
theorem exists_ofRoutes_of_edits {flows : Nat}
    (h : (edits es (empty flows links) : Attempt α RouteTable) = .ok t) :
    ∃ routes, t = ofRoutes routes links ∧ Over links routes := by
  rw [empty_eq_ofRoutes] at h
  obtain ⟨hrun, -, hover⟩ := edits_ofRoutes
    (within_of_edits_eq_ok (over_replicate flows links) h) (over_replicate flows links)
  exact ⟨_, Except.ok.inj (h.symm.trans hrun), hover⟩

end RouteTable

variable [Scalar α]

/-! ### What was done and undone -/

namespace Network

variable {n n' : Network α} {how : Charge} {bandwidth : α} {route : Route}

/-- Charging a route leaves the links alone that it does not take. -/
theorem charge_frame (h : n.charge how bandwidth route = .ok n') :
    n'.topology = n.topology ∧ ∀ k ∉ route, n'.usageOf k = n.usageOf k := by
  rw [charge_eq_ok how bandwidth (lt_of_charge_eq_ok h)] at h
  obtain rfl := Except.ok.inj h
  refine ⟨rfl, fun k hk ↦ ?_⟩
  have hsame : (charged (signed how bandwidth) route n.usage)[k.index]? = n.usage[k.index]? := by
    rw [charged, Array.getElem?_mapIdx]
    have hcount : route.count ⟨k.index⟩ = 0 := List.count_eq_zero.2 hk
    simp [hcount, addTimes]
  rw [usageOf, usageOf, Attempt.entry, Attempt.entry, hsame]

omit [Scalar α] in
/-- A network is determined by its topology and its usages. -/
theorem ext_usageOf (htopology : n'.topology = n.topology)
    (husage : ∀ k, n'.usageOf k = n.usageOf k) : n' = n := by
  obtain ⟨t, usage⟩ := n
  obtain ⟨t', usage'⟩ := n'
  obtain rfl := htopology
  have hget : usage' = usage := by
    refine Array.ext_getElem? fun i ↦ Option.ext fun u ↦ ?_
    have hentry : (Attempt.entry usage' (⟨i⟩ : LinkId) : Attempt α α) = Attempt.entry usage ⟨i⟩ :=
      husage ⟨i⟩
    have hiff := @Attempt.entry_eq_ok_iff α α .link
    rw [← @hiff usage' ⟨i⟩, ← @hiff usage ⟨i⟩, hentry]
  rw [hget]

omit [Scalar α] in
theorem neverFails_setUsage (n : Network α) (k : LinkId) (u : α) : (n.setUsage k u).NeverFails :=
  (Attempt.neverFails_entry n.usage k).bind fun _ ↦ Attempt.neverFails_ok _

end Network

theorem RouteTable.neverFails_settledUsage (t : RouteTable) (traffic : Traffic α) (k : LinkId) :
    (t.settledUsage traffic k).NeverFails :=
  (Attempt.neverFails_entry t.crossings k).bind fun _ ↦ Attempt.NeverFails.foldlM
    (fun _ _ _ ↦ (Attempt.neverFails_entry _ _).bind fun _ ↦ Attempt.neverFails_ok _) _

namespace Ledger

variable {traffic : Traffic α} {a : Algorithm} {p : Placement} {f : FlowId} {l l' : Ledger α}

theorem neverFails_withdraw (traffic : Traffic α) (f : FlowId) (l : Ledger α) :
    (l.withdraw traffic f).NeverFails :=
  (Attempt.neverFails_entry _ _).bind fun _ ↦ (l.table.neverFails_replace f []).bind fun _ ↦
    (Network.neverFails_charge _ _ _ _).bind fun _ ↦ Attempt.neverFails_ok _

theorem neverFails_deposit (traffic : Traffic α) (f : FlowId) (route : Route) (l : Ledger α) :
    (l.deposit traffic f route).NeverFails :=
  (Attempt.neverFails_entry _ _).bind fun _ ↦ (Network.neverFails_charge _ _ _ _).bind fun _ ↦
    (l.table.neverFails_replace f route).bind fun _ ↦ Attempt.neverFails_ok _

theorem neverFails_settle (traffic : Traffic α) (route : Route) (l : Ledger α) :
    (l.settle traffic route).NeverFails := by
  induction route generalizing l with
  | nil => exact Attempt.neverFails_ok l
  | cons k route ih =>
    exact (l.table.neverFails_settledUsage traffic k).bind fun u ↦
      (l.network.neverFails_setUsage k u).bind fun _ ↦ ih _

/-- **Settling a route** makes each of its links carry the sum over the flows that cross it, and
leaves the other ones alone. -/
theorem settle_eq_ok {route : Route} (h : l.settle traffic route = .ok l') :
    l'.table = l.table ∧ l'.network.topology = l.network.topology ∧
      (∀ k ∉ route, l'.network.usageOf k = l.network.usageOf k) ∧
      ∀ k ∈ route, ∃ u, l.table.settledUsage traffic k = .ok u ∧ l'.network.usageOf k = .ok u := by
  induction route generalizing l with
  | nil =>
    obtain rfl := Except.ok.inj h
    exact ⟨rfl, rfl, fun _ _ ↦ rfl, by simp⟩
  | cons k route ih =>
    obtain ⟨u, hu, h⟩ := Attempt.bind_eq_ok_iff.1 h
    obtain ⟨network, hset, h⟩ := Attempt.bind_eq_ok_iff.1 h
    obtain ⟨_, hold, hset⟩ := Attempt.bind_eq_ok_iff.1 hset
    obtain rfl := Except.ok.inj hset
    have hk := (Array.getElem?_eq_some_iff.1 (Attempt.entry_eq_ok_iff.1 hold)).1
    obtain ⟨htable, htopology, hothers, hroute⟩ := ih h
    refine ⟨htable, htopology, fun j hj ↦ ?_, fun j hj ↦ ?_⟩
    · obtain ⟨hjk, hj⟩ := List.ne_and_not_mem_of_not_mem_cons hj
      have hne : k.index ≠ j.index := fun e ↦ hjk (Id.ext e.symm)
      rw [hothers j hj, Network.usageOf, Network.usageOf, Attempt.entry, Attempt.entry,
        Array.getElem?_setIfInBounds_ne hne]
    · by_cases hlater : j ∈ route
      · exact hroute j hlater
      · obtain rfl := (List.mem_cons.1 hj).resolve_right hlater
        refine ⟨u, hu, (hothers j hlater).trans (Attempt.entry_eq_ok_iff.2 ?_)⟩
        exact Array.getElem?_setIfInBounds_self_of_lt hk

/-- Taking a flow off its links leaves the other links alone. -/
theorem withdraw_eq_ok {routes : Array Route} {links : Nat} {old : Route}
    (htable : l.table = .ofRoutes routes links) (hover : RouteTable.Over links routes)
    (h : l.withdraw traffic f = .ok (old, l')) :
    routes[f.index]? = some old ∧
      l'.table = .ofRoutes (routes.setIfInBounds f.index []) links ∧
      l'.network.topology = l.network.topology ∧
      ∀ k ∉ old, l'.network.usageOf k = l.network.usageOf k := by
  obtain ⟨flow, -, h⟩ := Attempt.bind_eq_ok_iff.1 h
  obtain ⟨⟨_, table⟩, htake, h⟩ := Attempt.bind_eq_ok_iff.1 h
  obtain ⟨network, hcharge, h⟩ := Attempt.bind_eq_ok_iff.1 h
  obtain ⟨rfl, rfl⟩ := Prod.mk.inj (Except.ok.inj h)
  rw [htable, RouteTable.take] at htake
  obtain ⟨hold, -⟩ := RouteTable.lt_of_replace_eq_ok htake
  rw [RouteTable.replace_ofRoutes hold (hover hold) (by simp)] at htake
  obtain ⟨-, rfl⟩ := Prod.mk.inj (Except.ok.inj htake)
  exact ⟨hold, rfl, Network.charge_frame hcharge⟩

/-- Putting a flow on the links of a route leaves the other links alone. -/
theorem deposit_eq_ok {routes : Array Route} {links : Nat} {route : Route}
    (htable : l.table = .ofRoutes routes links) (hover : RouteTable.Over links routes)
    (h : l.deposit traffic f route = .ok l') :
    l'.table = .ofRoutes (routes.setIfInBounds f.index route) links ∧
      l'.network.topology = l.network.topology ∧
      ∀ k ∉ route, l'.network.usageOf k = l.network.usageOf k := by
  obtain ⟨flow, -, h⟩ := Attempt.bind_eq_ok_iff.1 h
  obtain ⟨network, hcharge, h⟩ := Attempt.bind_eq_ok_iff.1 h
  obtain ⟨⟨old, table⟩, hstore, h⟩ := Attempt.bind_eq_ok_iff.1 h
  obtain rfl := Except.ok.inj h
  rw [htable] at hstore
  obtain ⟨hold, hroute⟩ := RouteTable.lt_of_replace_eq_ok hstore
  rw [RouteTable.replace_ofRoutes hold (hover hold) hroute] at hstore
  obtain ⟨-, rfl⟩ := Prod.mk.inj (Except.ok.inj hstore)
  exact ⟨rfl, Network.charge_frame hcharge⟩

/-- **Routing a flow again without finding a route** puts its old route back. -/
theorem reroute_eq_fail {e : Error α} (h : (l.reroute traffic a p f).result = Attempt.fail e) :
    ∃ old bare back, l.withdraw traffic f = .ok (old, bare) ∧
      routeFlow traffic a bare.network.topology p f = Attempt.fail e ∧
      bare.deposit traffic f old = .ok back ∧
      back.settle traffic old = .ok (l.reroute traffic a p f).state := by
  have hback : ∀ {old} {bare : Ledger α}, (bare.deposit traffic f old >>= fun l ↦
      l.settle traffic old >>= fun l ↦ pure ((), l)).NeverFails := fun {old bare} ↦
    (neverFails_deposit traffic f old bare).bind fun _ ↦ (neverFails_settle _ _ _).bind fun _ ↦
      Attempt.neverFails_ok _
  have hstored : ∀ {old new} {bare : Ledger α}, (bare.deposit traffic f new >>= fun l ↦
      l.settle traffic old >>= fun l ↦ l.settle traffic new >>= fun l ↦
        pure ((), l)).NeverFails := fun {old new bare} ↦
    (neverFails_deposit traffic f new bare).bind fun _ ↦ (neverFails_settle _ _ _).bind fun _ ↦
      (neverFails_settle _ _ _).bind fun _ ↦ Attempt.neverFails_ok _
  rw [reroute] at h ⊢
  cases hwithdraw : l.withdraw traffic f with
  | error why =>
    simp only [hwithdraw] at h
    exact absurd (hwithdraw.trans (congrArg Except.error (Except.error.inj h)))
      (neverFails_withdraw traffic f l e)
  | ok taken =>
    obtain ⟨old, bare⟩ := taken
    simp only [hwithdraw] at h ⊢
    cases hroute : routeFlow traffic a bare.network.topology p f with
    | ok new =>
      simp only [hroute] at h
      exact absurd (Outcome.eq_fail_of_ofAttempt h) (hstored e)
    | error why =>
      simp only [hroute] at h ⊢
      obtain ⟨rfl, _, hput⟩ := Outcome.andThen_error_eq_fail hback h
      obtain ⟨back, hdeposit, hput⟩ := Attempt.bind_eq_ok_iff.1 hput
      obtain ⟨settled, hsettle, hput⟩ := Attempt.bind_eq_ok_iff.1 hput
      obtain ⟨-, hstate⟩ := Prod.mk.inj (Except.ok.inj hput)
      exact ⟨old, bare, back, rfl, hroute, hdeposit, hstate ▸ hsettle⟩

/-- **A flow that cannot be routed again** stays where it is. After any edits of the empty table,
and whatever the links carry, the error is the one of routing the flow, and the table is as it was.
The links of the route carry the sums over the flows that cross them, and the other links carry what
they carried; so if the links of the route were settled, then nothing has changed. -/
theorem reroute_failed {es : List RouteTable.Edit} {flows links : Nat} {network : Network α}
    {table : RouteTable} {e : Error α}
    (htable : (RouteTable.edits es (.empty flows links) : Attempt α RouteTable) = .ok table)
    (hfail : ((⟨network, table⟩ : Ledger α).reroute traffic a p f).result = Attempt.fail e) :
    routeFlow traffic a network.topology p f = Attempt.fail e ∧
    ∃ route network', (table.route f : Attempt α Route) = .ok route ∧
      ((⟨network, table⟩ : Ledger α).reroute traffic a p f).state = ⟨network', table⟩ ∧
      network'.topology = network.topology ∧
      (∀ k ∉ route, network'.usageOf k = network.usageOf k) ∧
      (∀ k ∈ route, ∃ u, table.settledUsage traffic k = .ok u ∧ network'.usageOf k = .ok u) ∧
      ((∀ k ∈ route, network.usageOf k = table.settledUsage traffic k) → network' = network) := by
  obtain ⟨routes, rfl, hover⟩ := RouteTable.exists_ofRoutes_of_edits htable
  obtain ⟨old, bare, back, hwithdraw, hroute, hdeposit, hsettle⟩ := reroute_eq_fail hfail
  obtain ⟨hold, hbare, htopology₁, hframe₁⟩ := withdraw_eq_ok rfl hover hwithdraw
  obtain ⟨hback, htopology₂, hframe₂⟩ :=
    deposit_eq_ok hbare (hover.set f (List.forall_mem_nil _)) hdeposit
  obtain ⟨htable', htopology₃, hframe₃, hsettled⟩ := settle_eq_ok hsettle
  have hroutes : (routes.setIfInBounds f.index []).setIfInBounds f.index old = routes := by
    rw [Array.setIfInBounds_setIfInBounds]
    refine Array.ext_getElem? fun i ↦ ?_
    rw [Array.getElem?_setIfInBounds]
    split
    · rename_i hi
      rw [← hi, hold, if_pos (Array.getElem?_eq_some_iff.1 hold).1]
    · rfl
  rw [hback, hroutes] at hsettled htable'
  have htopology := htopology₃.trans (htopology₂.trans htopology₁)
  have hframe : ∀ k ∉ old,
      ((⟨network, _⟩ : Ledger α).reroute traffic a p f).state.network.usageOf k =
        network.usageOf k := fun k hk ↦
    (hframe₃ k hk).trans ((hframe₂ k hk).trans (hframe₁ k hk))
  refine ⟨htopology₁ ▸ hroute, old, _, RouteTable.route_ofRoutes.2 hold,
    congrArg (Ledger.mk _) htable', htopology, hframe, hsettled,
    fun hsame ↦ Network.ext_usageOf htopology fun k ↦ ?_⟩
  by_cases hk : k ∈ old
  · obtain ⟨u, hu, hafter⟩ := hsettled k hk
    rw [hafter, hsame k hk, hu]
  · exact hframe k hk

end Ledger

namespace Line

/-- One flow goes to the next router, back, and there again, and the other flow back only. -/
def detour : RouteTable where
  routes := #[[⟨0⟩, ⟨1⟩, ⟨0⟩], [⟨1⟩]]
  crossings := #[[(⟨0⟩, 2)], [(⟨0⟩, 1), (⟨1⟩, 1)], [], []]

/-- The first link and the third one carry too much. -/
def loaded : Network Exact :=
  ⟨topology, #[.number 7, .number 5, .number 9, .number 0]⟩

end Line

namespace Ledger

/-- On a row of three routers the first flow cannot be routed off the grid. Its first link is
settled and the second one is as it was, and so is a link that it does not take. -/
theorem reroute_failed_line :
    (RouteTable.edits [.replace ⟨0⟩ [⟨0⟩, ⟨1⟩, ⟨0⟩], .replace ⟨1⟩ [⟨1⟩]] (.empty 2 4) :
      Attempt Exact RouteTable) = .ok Line.detour ∧
    (reroute Line.traffic .fewestHops (Line.placed 3) ⟨0⟩ ⟨Line.loaded, Line.detour⟩).result =
      Attempt.fail (.noRouterAt ⟨1⟩ ⟨3, 0, 0⟩) ∧
    ∃ network,
      (reroute Line.traffic .fewestHops (Line.placed 3) ⟨0⟩ ⟨Line.loaded, Line.detour⟩).state =
        ⟨network, Line.detour⟩ ∧
      network.usageOf ⟨0⟩ = .ok (.number 6) ∧ network.usageOf ⟨1⟩ = .ok (.number 5) ∧
      network.usageOf ⟨2⟩ = .ok (.number 9) := by
  have htable : (RouteTable.edits [.replace ⟨0⟩ [⟨0⟩, ⟨1⟩, ⟨0⟩], .replace ⟨1⟩ [⟨1⟩]] (.empty 2 4) :
      Attempt Exact RouteTable) = .ok Line.detour := by decide +kernel
  have hfail : (reroute Line.traffic .fewestHops (Line.placed 3) ⟨0⟩
      ⟨Line.loaded, Line.detour⟩).result = Attempt.fail (.noRouterAt ⟨1⟩ ⟨3, 0, 0⟩) := by
    decide +kernel
  obtain ⟨-, route, network, hroute, hstate, -, hothers, hsettled, -⟩ := reroute_failed htable hfail
  obtain rfl : [⟨0⟩, ⟨1⟩, ⟨0⟩] = route := Except.ok.inj hroute
  have hfirst : Line.detour.settledUsage Line.traffic ⟨0⟩ = .ok (.number 6) := by decide +kernel
  have hsecond : Line.detour.settledUsage Line.traffic ⟨1⟩ = .ok (.number 5) := by decide +kernel
  obtain ⟨_, hu, husage⟩ := hsettled ⟨0⟩ (by decide)
  obtain ⟨_, hv, hvsage⟩ := hsettled ⟨1⟩ (by decide)
  exact ⟨htable, hfail, network, hstate, husage.trans (hu.symm.trans hfirst),
    hvsage.trans (hv.symm.trans hsecond), hothers ⟨2⟩ (by decide)⟩

end Ledger

end NetOnChip
