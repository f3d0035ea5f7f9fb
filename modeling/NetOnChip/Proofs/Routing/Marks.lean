import NetOnChip.Proofs.Topology.Path

/-!
# Marks

A search marks the routers that it has come to, or those that it is done with, and never goes on to
a marked router. So a path over marked routers stays a path when the search extends it
(`Marked.extend`), and the number of routers without a mark bounds what is still to come
(`count_false_setIfInBounds`).
-/

namespace NetOnChip

/-- One router less is without a mark once it is marked. -/
theorem count_false_setIfInBounds {marks : Array Bool} {i : Nat} (h : marks[i]? = some false) :
    (marks.setIfInBounds i true).count false + 1 = marks.count false := by
  obtain ⟨hi, hfalse⟩ := Array.getElem?_eq_some_iff.1 h
  have hpos : 0 < marks.count false := Array.count_pos_iff.2 (hfalse ▸ Array.getElem_mem hi)
  rw [Array.setIfInBounds, dif_pos hi, Array.count_set hi, hfalse]
  simp
  omega

/-- What is marked stays marked. -/
theorem marked_setIfInBounds {marks : Array Bool} {i j : Nat} (h : marks[i]? = some true) :
    (marks.setIfInBounds j true)[i]? = some true := by
  have hi := (Array.getElem?_eq_some_iff.1 h).1
  rw [Array.getElem?_setIfInBounds]
  split
  · rename_i hji
    rw [if_pos (hji ▸ hi)]
  · exact h

namespace Topology

variable {α : Type} {t : Topology α} {source here : RouterId} {marks : Array Bool} {trail : Route}

/-- A path over marked routers. The links are given with the last one first. -/
structure Marked (t : Topology α) (source : RouterId) (marks : Array Bool) (trail : Route)
    (here : RouterId) : Prop where
  /-- The links lead to the router, and not twice to the same one. -/
  path : t.Path source trail.reverse here
  /-- All routers on the way are marked. -/
  marked : ∀ r ∈ t.stops trail.reverse here, marks[r.index]? = some true

namespace Marked

theorem start (h : marks[source.index]? = some true) : t.Marked source marks [] source where
  path := .nil source
  marked := List.forall_mem_singleton.2 h

theorem here_marked (h : t.Marked source marks trail here) : marks[here.index]? = some true :=
  h.marked here (by simp [stops])

theorem notMem_stops (h : t.Marked source marks trail here) {r : RouterId}
    (hr : marks[r.index]? = some false) : r ∉ t.stops trail.reverse here := by
  intro hmem
  have hmarked := h.marked r hmem
  rw [hr] at hmarked
  cases hmarked

/-- Further marks do no harm. -/
theorem set (h : t.Marked source marks trail here) (i : Nat) :
    t.Marked source (marks.setIfInBounds i true) trail here :=
  ⟨h.path, fun r hr ↦ marked_setIfInBounds (h.marked r hr)⟩

/-- **A search goes on** to a router without a mark. -/
theorem path_cons (h : t.Marked source marks trail here) {l : LinkId} {link : Link α}
    (hl : t.links[l.index]? = some link) (hlink : link.source = here)
    (hnew : marks[link.sink.index]? = some false) :
    t.Path source (l :: trail).reverse link.sink := by
  rw [List.reverse_cons]
  exact h.path.concat hl hlink (h.notMem_stops hnew)

theorem stops_cons {l : LinkId} {link : Link α} (hl : t.links[l.index]? = some link)
    (hlink : link.source = here) (trail : Route) :
    t.stops (l :: trail).reverse link.sink = t.stops trail.reverse here ++ [link.sink] := by
  rw [List.reverse_cons, stops_concat hl, hlink]

/-- The router that a search goes on to gets a mark. -/
theorem extend (h : t.Marked source marks trail here) {l : LinkId} {link : Link α}
    (hl : t.links[l.index]? = some link) (hlink : link.source = here)
    (hnew : marks[link.sink.index]? = some false) :
    t.Marked source (marks.setIfInBounds link.sink.index true) (l :: trail) link.sink := by
  refine ⟨h.path_cons hl hlink hnew, fun r hr ↦ ?_⟩
  rw [stops_cons hl hlink] at hr
  rcases List.mem_append.1 hr with hr | hr
  · exact (h.set link.sink.index).marked r hr
  · obtain rfl := List.mem_singleton.1 hr
    exact Array.getElem?_setIfInBounds_self_of_lt (Array.getElem?_eq_some_iff.1 hnew).1

end Marked

end Topology

end NetOnChip
