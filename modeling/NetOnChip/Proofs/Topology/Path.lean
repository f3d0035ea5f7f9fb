import Mathlib.Data.List.Induction
import Mathlib.Data.List.Nodup
import Mathlib.Data.List.Perm.Subperm
import NetOnChip.Proofs.Topology.Walk

/-!
# Paths

A *path* is a walk that visits no router twice. In a well-formed and closed topology it takes fewer
links than there are routers (`Path.length_lt`), which is why searches that find paths can be
bounded by the number of routers.

A search may collect the links of its paths, or it may keep for every router the link by which it
came there and walk these links back in the end (`retrace`). Parent links are *on track* for a route
when every router that the route comes to has the link of the route for its parent. Walking back
then gives the route again, and it never meets a router without a parent (`retrace_eq`).
-/

namespace NetOnChip

namespace Id

/-- As many identifiers as there are numbers below a bound are too many to be distinct. -/
theorem length_le_of_nodup {kind : Kind} {ids : List (Id kind)} (h : ids.Nodup) {n : Nat}
    (hlt : ∀ i ∈ ids, i.index < n) : ids.length ≤ n := by
  have hsub : ids ⊆ range n := fun i hi ↦ mem_range.2 (hlt i hi)
  simpa using (h.subperm hsub).length_le

end Id

namespace Topology

variable {α : Type} {t : Topology α}

/-! ### Where a walk comes by -/

/-- The routers that a walk to a sink visits, from its source on. -/
def stops (t : Topology α) (route : Route) (sink : RouterId) : List RouterId :=
  route.filterMap (fun l ↦ t.links[l.index]?.map (·.source)) ++ [sink]

theorem stops_nil (sink : RouterId) : t.stops [] sink = [sink] :=
  rfl

theorem stops_concat {route : Route} {l : LinkId} {link : Link α}
    (hl : t.links[l.index]? = some link) (sink : RouterId) :
    t.stops (route ++ [l]) sink = t.stops route link.source ++ [sink] := by
  simp [stops, hl]

theorem walk_concat_iff {source sink : RouterId} {route : Route} {l : LinkId} :
    t.Walk source (route ++ [l]) sink ↔
      ∃ link, t.links[l.index]? = some link ∧ link.sink = sink ∧
        t.Walk source route link.source := by
  constructor
  · intro h
    induction route generalizing source with
    | nil =>
      obtain ⟨link, hl, rfl, hrest⟩ := walk_cons_iff.1 h
      exact ⟨link, Attempt.entry_eq_ok_iff.1 hl, walk_nil_iff.1 hrest, .nil _⟩
    | cons k route ih =>
      obtain ⟨first, hk, rfl, hrest⟩ := walk_cons_iff.1 h
      obtain ⟨link, hl, hsink, hroute⟩ := ih hrest
      exact ⟨link, hl, hsink, .cons (Attempt.entry_eq_ok_iff.1 hk) hroute⟩
  · rintro ⟨link, hl, rfl, hroute⟩
    exact hroute.concat hl rfl

/-- A walk visits its source. -/
theorem Walk.source_mem_stops {source sink : RouterId} {route : Route}
    (h : t.Walk source route sink) : source ∈ t.stops route sink := by
  cases h with
  | nil => simp [stops_nil]
  | cons hl _ => simp [stops, hl]

/-- A walk visits one router more than it takes links. -/
theorem Walk.length_stops {source sink : RouterId} {route : Route}
    (h : t.Walk source route sink) : (t.stops route sink).length = route.length + 1 := by
  induction h with
  | nil => rfl
  | cons hl _ ih => simpa [stops, hl] using ih

/-- All routers that a walk visits exist. -/
theorem lt_of_mem_stops (hw : t.WellFormed) {route : Route} {sink r : RouterId}
    (hsink : sink.index < t.routers.size) (hr : r ∈ t.stops route sink) :
    r.index < t.routers.size := by
  rcases List.mem_append.1 hr with hr | hr
  · obtain ⟨l, _, hl⟩ := List.mem_filterMap.1 hr
    obtain ⟨link, hlink, rfl⟩ := Option.map_eq_some_iff.1 hl
    exact hw.source_lt link (Array.mem_of_getElem? hlink)
  · exact List.mem_singleton.1 hr ▸ hsink

/-! ### Paths -/

/-- A walk that visits no router twice. -/
structure Path (t : Topology α) (source : RouterId) (route : Route) (sink : RouterId) : Prop where
  /-- The route follows the links from the source to the sink. -/
  walk : t.Walk source route sink
  /-- It comes by no router twice. -/
  nodup : (t.stops route sink).Nodup

namespace Path

variable {source sink here : RouterId} {route : Route}

theorem nil (source : RouterId) : t.Path source [] source :=
  ⟨.nil source, List.nodup_singleton _⟩

/-- A path may be extended by a link to a router that it has not visited. -/
theorem concat (h : t.Path source route here) {l : LinkId} {link : Link α}
    (hl : t.links[l.index]? = some link) (hlink : link.source = here)
    (hnew : link.sink ∉ t.stops route here) : t.Path source (route ++ [l]) link.sink := by
  refine ⟨h.walk.concat hl hlink, ?_⟩
  subst hlink
  rw [stops_concat hl]
  exact List.nodup_append.2 ⟨h.nodup, List.nodup_singleton _, fun r hr r' hr' e ↦
    hnew (List.mem_singleton.1 hr' ▸ e ▸ hr)⟩

/-- **A path takes fewer links than there are routers.** -/
theorem length_lt (h : t.Path source route sink) (hw : t.WellFormed)
    (hsink : sink.index < t.routers.size) : route.length < t.routers.size := by
  have hle := Id.length_le_of_nodup h.nodup fun r hr ↦ lt_of_mem_stops hw hsink hr
  rw [h.walk.length_stops] at hle
  omega

/-- Only the empty path comes back to where it started. -/
theorem eq_nil_iff (h : t.Path source route sink) : route = [] ↔ source = sink := by
  constructor
  · rintro rfl
    exact walk_nil_iff.1 h.walk
  · rintro rfl
    rcases List.eq_nil_or_concat route with rfl | ⟨front, l, rfl⟩
    · rfl
    · -- the last link would lead back to the source, which was visited before
      rw [List.concat_eq_append] at h ⊢
      obtain ⟨link, hl, hsink, hfront⟩ := walk_concat_iff.1 h.walk
      have hnodup := h.nodup
      rw [stops_concat hl] at hnodup
      exact absurd rfl ((List.nodup_append.1 hnodup).2.2 source hfront.source_mem_stops source
        (List.mem_singleton.2 rfl))

end Path

/-! ### Parent links -/

/-- Walks parent links back to the source, in front of the links walked back already. There is no
result if a router has no parent, or if the source does not come in time. -/
def retrace (t : Topology α) (parents : Array (Option LinkId)) (source : RouterId) :
    Nat → RouterId → Route → Option Route
  | 0, here, route => if here = source then some route else none
  | fuel + 1, here, route =>
    if here = source then
      some route
    else do
      let l ← parents[here.index]?.join
      let link ← t.links[l.index]?
      retrace t parents source fuel link.source (l :: route)

theorem retrace_self (parents : Array (Option LinkId)) (fuel : Nat) (source : RouterId)
    (route : Route) : t.retrace parents source fuel source route = some route := by
  cases fuel <;> exact if_pos rfl

/-- Every router that a route comes to has the link of the route for its parent. -/
def OnTrack (t : Topology α) (parents : Array (Option LinkId)) (route : Route) : Prop :=
  ∀ l ∈ route, ∃ link, t.links[l.index]? = some link ∧ parents[link.sink.index]? = some (some l)

/-- A link leads to a router that the walk visits after its source. -/
theorem Walk.sink_mem_stops {source sink : RouterId} {route : Route} (h : t.Walk source route sink)
    {l : LinkId} (hl : l ∈ route) {link : Link α} (hlink : t.links[l.index]? = some link) :
    link.sink ∈ t.stops route sink := by
  induction h with
  | nil => exact absurd hl List.not_mem_nil
  | @cons k first route sink hk hrest ih =>
    have hcons : t.stops (k :: route) sink = first.source :: t.stops route sink := by
      simp [stops, hk]
    rw [hcons]
    rcases List.mem_cons.1 hl with rfl | hl
    · rw [hk, Option.some.injEq] at hlink
      exact List.mem_cons_of_mem _ (hlink ▸ hrest.source_mem_stops)
    · exact List.mem_cons_of_mem _ (ih hl)

/-- A new parent for a router that a walk does not visit leaves the walk on track. -/
theorem OnTrack.set {parents : Array (Option LinkId)} {source sink next : RouterId} {route : Route}
    (h : t.OnTrack parents route) (hwalk : t.Walk source route sink)
    (hnext : next ∉ t.stops route sink) (parent : Option LinkId) :
    t.OnTrack (parents.setIfInBounds next.index parent) route := by
  intro l hl
  obtain ⟨link, hlink, hparent⟩ := h l hl
  refine ⟨link, hlink, ?_⟩
  have hne : next.index ≠ link.sink.index := fun e ↦
    hnext (Id.ext e ▸ hwalk.sink_mem_stops hl hlink)
  rw [Array.getElem?_setIfInBounds, if_neg hne, hparent]

/-- A walk goes on over a link that becomes the parent of the next router. -/
theorem OnTrack.concat {parents : Array (Option LinkId)} {source here : RouterId} {route : Route}
    (h : t.OnTrack parents route) (hwalk : t.Walk source route here) {l : LinkId} {link : Link α}
    (hl : t.links[l.index]? = some link) (hnext : link.sink ∉ t.stops route here)
    (hsize : link.sink.index < parents.size) :
    t.OnTrack (parents.setIfInBounds link.sink.index (some l)) (route ++ [l]) := by
  intro k hk
  rcases List.mem_append.1 hk with hk | hk
  · exact h.set hwalk hnext (some l) k hk
  · obtain rfl := List.mem_singleton.1 hk
    exact ⟨link, hl, Array.getElem?_setIfInBounds_self_of_lt hsize⟩

/-- **Walking the parents of a path back** gives the path, and no router on it lacks its parent. -/
theorem retrace_eq {parents : Array (Option LinkId)} {source sink : RouterId} {route : Route}
    (hpath : t.Path source route sink) (htrack : t.OnTrack parents route) {fuel : Nat}
    (hfuel : route.length ≤ fuel) (done : Route) :
    t.retrace parents source fuel sink done = some (route ++ done) := by
  induction route using List.reverseRecOn generalizing sink fuel done with
  | nil =>
    obtain rfl := walk_nil_iff.1 hpath.walk
    exact retrace_self ..
  | append_singleton front l ih =>
    obtain ⟨link, hl, rfl, hfront⟩ := walk_concat_iff.1 hpath.walk
    obtain ⟨link', hl', hparent⟩ := htrack l (by simp)
    rw [hl, Option.some.injEq] at hl'
    subst hl'
    have hnodup := hpath.nodup
    rw [stops_concat hl] at hnodup
    obtain ⟨hfront', -, hdisjoint⟩ := List.nodup_append.1 hnodup
    have hne : link.sink ≠ source := fun e ↦
      hdisjoint source hfront.source_mem_stops link.sink (List.mem_singleton.2 rfl) e.symm
    obtain ⟨fuel, rfl⟩ : ∃ k, fuel = k + 1 := ⟨fuel - 1, by simp at hfuel; omega⟩
    rw [retrace, if_neg hne, hparent]
    show (t.links[l.index]? >>= _) = _
    rw [hl]
    show t.retrace parents source fuel link.source (l :: done) = _
    rw [ih ⟨hfront, hfront'⟩ (fun k hk ↦ htrack k (List.mem_append_left _ hk))
      (by simpa using hfuel)]
    simp

end Topology

end NetOnChip
