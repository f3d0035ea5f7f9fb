import Mathlib.Data.List.Basic
import NetOnChip.Proofs.Topology.Built

/-!
# Looking up routers and links

Routers are looked up by their tile, links by the routers that they run between. The look-ups
search. A router that is added changes what is found on a tile as if it was inserted into a table
(`routerAt?_addRouter`), so in a topology that was built the look-up by tile is the inverse of the
tiles of the routers (`Built.routerAt?_eq_some_iff`). The links that leave a router are listed in
ascending order, so the look-up by source and sink finds the lowest link between the two
(`WellFormed.exists_linkBetween?`).
-/

namespace NetOnChip

namespace Topology

variable {α : Type} {t t' : Topology α} {r : RouterId} {userId : Int32} {tile : Tile} {latency : α}

/-! ### Adding a router -/

/-- A router is added on a free tile, and gets the next identifier. -/
theorem addRouter_eq_ok_iff :
    t.addRouter userId tile latency = .ok (r, t') ↔
      t.routerAt? tile = none ∧ r = ⟨t.routers.size⟩ ∧
        t' = { t with
          routers := t.routers.push ⟨userId, tile, latency⟩
          departures := t.departures.push [] } := by
  unfold addRouter
  split
  · rename_i h
    simp [h, Attempt.fail]
  · rename_i h
    simp [h, eq_comm]

/-- A router is not added on a tile that has one. -/
theorem addRouter_eq_fail_iff {e : Error α} :
    t.addRouter userId tile latency = Attempt.fail e ↔
      (∃ r, t.routerAt? tile = some r) ∧ e = .occupiedTile tile := by
  unfold addRouter
  split
  · rename_i h
    simp [h, Attempt.fail, eq_comm]
  · rename_i h
    simp [h, Attempt.fail]

/-- The new router is found by its identifier, and the others as before. -/
theorem router_addRouter (h : t.addRouter userId tile latency = .ok (r, t')) (q : RouterId) :
    t'.router q = if q = r then .ok ⟨userId, tile, latency⟩ else t.router q := by
  obtain ⟨-, rfl, rfl⟩ := addRouter_eq_ok_iff.1 h
  rw [router, router, Attempt.entry, Attempt.entry, Array.getElem?_push]
  by_cases hq : q.index = t.routers.size
  · rw [if_pos hq, if_pos (show q = ⟨t.routers.size⟩ from Id.ext hq)]
  · rw [if_neg hq, if_neg (show q ≠ ⟨t.routers.size⟩ from fun e ↦ hq (congrArg Id.index e))]

/-- **The look-up by tile** changes as if the new router was inserted. -/
theorem routerAt?_addRouter (h : t.addRouter userId tile latency = .ok (r, t')) (tile' : Tile) :
    t'.routerAt? tile' = if tile = tile' then some r else t.routerAt? tile' := by
  obtain ⟨hfree, rfl, rfl⟩ := addRouter_eq_ok_iff.1 h
  rw [routerAt?, Array.findIdx?_push]
  by_cases htile : tile = tile'
  · -- there was no router on the tile before
    subst htile
    rw [Option.map_eq_none_iff.1 hfree]
    simp
  · simp [htile, routerAt?]

/-- The links that leave a router, as they are listed, are exactly those with that source. -/
theorem WellFormed.exists_outgoing (hw : t.WellFormed) (hr : r.index < t.routers.size) :
    ∃ ls, t.outgoing r = .ok ls ∧ (ls.Pairwise fun l l' ↦ l.index < l'.index) ∧
      ∀ l, l ∈ ls ↔ ∃ link, t.link l = .ok link ∧ link.source = r := by
  have hascending : (Id.range t.links.size : List LinkId).Pairwise fun l l' ↦ l.index < l'.index :=
    List.pairwise_map.2 List.pairwise_lt_range
  refine ⟨_, hw.outgoing_eq r hr, hascending.filter _, fun l ↦ ?_⟩
  simp only [List.mem_filter, Id.mem_range, leaves_iff, link, Attempt.entry_eq_ok_iff]
  refine and_iff_right_of_imp ?_
  rintro ⟨link, hlink, -⟩
  exact (Array.getElem?_eq_some_iff.1 hlink).1

/-- A link that leads from one router to another. -/
def Joins (t : Topology α) (source sink : RouterId) (l : LinkId) : Prop :=
  ∃ link, t.link l = .ok link ∧ link.source = source ∧ link.sink = sink

/-- In an ascending list the first match is the lowest one. -/
theorem find?_eq_some_iff_of_ascending {kind : Kind} {ids : List (Id kind)} {p : Id kind → Bool}
    {i : Id kind} (h : ids.Pairwise fun i j ↦ i.index < j.index) :
    ids.find? p = some i ↔ (i ∈ ids ∧ p i) ∧ ∀ j ∈ ids, p j → i.index ≤ j.index := by
  induction ids with
  | nil => simp
  | cons j ids ih =>
    obtain ⟨hj, hids⟩ := List.pairwise_cons.1 h
    rw [List.find?_cons]
    cases hp : p j with
    | true =>
      constructor
      · rintro ⟨⟩
        exact ⟨⟨List.mem_cons_self, hp⟩, List.forall_mem_cons.2
          ⟨fun _ ↦ Nat.le_refl _, fun k hk _ ↦ Nat.le_of_lt (hj k hk)⟩⟩
      · rintro ⟨⟨hi, -⟩, hle⟩
        rcases List.mem_cons.1 hi with rfl | hi
        · rfl
        · exact absurd (hle j List.mem_cons_self hp) (Nat.not_le.2 (hj i hi))
    | false =>
      rw [ih hids]
      constructor
      · rintro ⟨⟨hi, hpi⟩, hle⟩
        exact ⟨⟨List.mem_cons_of_mem _ hi, hpi⟩, List.forall_mem_cons.2 ⟨by simp [hp], hle⟩⟩
      · rintro ⟨⟨hi, hpi⟩, hle⟩
        refine ⟨⟨(List.mem_cons.1 hi).resolve_left ?_, hpi⟩, (List.forall_mem_cons.1 hle).2⟩
        rintro rfl
        simp [hp] at hpi

/-- The first link is found that leaves one router and leads to the other. -/
theorem linkBetween?_eq {ls : List LinkId} (h : t.outgoing r = .ok ls) (sink : RouterId) :
    t.linkBetween? r sink =
      .ok (ls.find? fun l ↦ t.links[l.index]?.any fun link ↦ link.sink = sink) := by
  rw [linkBetween?, h, Attempt.ok_bind]
  refine congrArg (fun leads ↦ Except.ok (ls.find? leads)) (funext fun l ↦ ?_)
  cases t.links[l.index]? <;> rfl

/-- **The link that is found** is the lowest one, if there is any. -/
theorem WellFormed.exists_linkBetween? (hw : t.WellFormed) (hr : r.index < t.routers.size)
    (sink : RouterId) :
    ∃ found, t.linkBetween? r sink = .ok found ∧
      (∀ l, found = some l ↔
        t.Joins r sink l ∧ ∀ l', t.Joins r sink l' → l.index ≤ l'.index) ∧
      (found = none ↔ ∀ l, ¬ t.Joins r sink l) := by
  obtain ⟨ls, hls, hascending, hmem⟩ := hw.exists_outgoing hr
  set leads : LinkId → Bool := fun l ↦ t.links[l.index]?.any fun link ↦ link.sink = sink
  have hjoins : ∀ l, t.Joins r sink l ↔ l ∈ ls ∧ leads l := by
    intro l
    rw [hmem, Joins]
    simp only [link, Attempt.entry_eq_ok_iff, leads]
    cases t.links[l.index]? <;> simp
  refine ⟨ls.find? leads, linkBetween?_eq hls sink, fun l ↦ ?_, ?_⟩
  · rw [find?_eq_some_iff_of_ascending hascending, hjoins]
    simp [hjoins]
  · simp [List.find?_eq_none, hjoins]

/-- **The look-up by tile** is the inverse of the tiles of the routers. -/
theorem Built.routerAt?_eq_some_iff (h : t.Built) :
    t.routerAt? tile = some r ↔ ∃ router, t.router r = .ok router ∧ router.tile = tile := by
  induction h generalizing r with
  | empty =>
    rw [routerAt?_eq_none_iff.2 (by simp [Topology.empty])]
    simp [router, Attempt.entry_eq_ok_iff, Topology.empty]
  | @addRouter t t' r' userId tile' latency _ h ih =>
    obtain ⟨hfree, hr', -⟩ := addRouter_eq_ok_iff.1 h
    rw [routerAt?_addRouter h, router_addRouter h]
    by_cases hr : r = r'
    · by_cases htile : tile' = tile
      · simp [hr, htile]
      · -- the identifier is new, so it was not found before
        refine iff_of_false (fun hfound ↦ ?_) (by simp [hr, htile])
        rw [if_neg htile] at hfound
        exact absurd (routerAt?_lt hfound) (by simp [hr, hr'])
    · rw [if_neg hr, ← ih]
      by_cases htile : tile' = tile
      · -- the tile was free, so no other router stands on it
        rw [← htile, hfree]
        simp [Ne.symm hr]
      · rw [if_neg htile]
  | addLink _ h ih =>
    obtain ⟨_, -, -, rfl⟩ := addLink_eq_ok h
    exact ih
  | addLinkPair _ h ih =>
    obtain ⟨_, hthere, hback⟩ := addLinkPair_eq_ok h
    obtain ⟨_, -, -, rfl⟩ := addLink_eq_ok hthere
    obtain ⟨_, -, -, rfl⟩ := addLink_eq_ok hback
    exact ih

end Topology

end NetOnChip
