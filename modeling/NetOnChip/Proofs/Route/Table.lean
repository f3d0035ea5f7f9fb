import Mathlib.Data.List.Basic
import Mathlib.Data.Nat.SuccPred
import NetOnChip.Route.Table

/-!
# The table of given routes

The crossings that a route table keeps are redundant: they can be read off the routes.
`Crossings.ofTimes` lists the flows that cross a link, given how often each flow does, and
`RouteTable.ofRoutes` is the table whose crossings are those of its routes. It is the only form of
table that is ever built, because the two operations on crossings keep the form:

* `cross_ofTimes` and `uncross_ofTimes` change the number of one flow by one and nothing else;
* `alongRoute_index` adds that up along a route that may take a link any number of times;
* `replace_ofRoutes` is the result for a table: replacing a route in the table of some routes gives
  the table of the routes with that one replaced.

So a table does not remember the order in which its routes were stored.
-/

namespace NetOnChip

namespace Crossings

/-! ### Crossings by number -/

/-- The crossings of a link by those among some flows that cross it at all. -/
def listed (times : FlowId → Nat) (flows : List FlowId) : Crossings :=
  flows.filterMap fun f ↦ if times f = 0 then none else some (f, times f)

/-- The crossings of a link, given how often every one of a number of flows crosses it. -/
def ofTimes (flows : Nat) (times : FlowId → Nat) : Crossings :=
  listed times (Id.range flows)

theorem listed_cons_of_zero {times : FlowId → Nat} {f : FlowId} (h : times f = 0)
    (flows : List FlowId) : listed times (f :: flows) = listed times flows := by
  simp [listed, h]

theorem listed_cons_of_ne_zero {times : FlowId → Nat} {f : FlowId} (h : times f ≠ 0)
    (flows : List FlowId) : listed times (f :: flows) = (f, times f) :: listed times flows := by
  simp [listed, h]

theorem mem_of_mem_listed {times : FlowId → Nat} {flows : List FlowId} {e : FlowId × Nat}
    (h : e ∈ listed times flows) : e.1 ∈ flows := by
  obtain ⟨f, hf, hfe⟩ := List.mem_filterMap.1 h
  split at hfe
  · cases hfe
  · cases hfe
    exact hf

/-- The number of a flow that is not listed does not matter. -/
theorem listed_update_of_not_mem {times : FlowId → Nat} {f : FlowId} {flows : List FlowId}
    (h : f ∉ flows) (n : Nat) : listed (Function.update times f n) flows = listed times flows := by
  refine List.filterMap_congr fun g hg ↦ ?_
  have hgf : g ≠ f := fun e ↦ h (e ▸ hg)
  rw [Function.update_of_ne hgf]

/-! ### One crossing more or less -/

theorem cross_of_forall_lt {f : FlowId} {c : Crossings} (h : ∀ e ∈ c, f.index < e.1.index) :
    cross f c = (f, 1) :: c := by
  cases c with
  | nil => rfl
  | cons e others => rw [cross, if_pos (h e List.mem_cons_self)]

theorem uncross_of_forall_ne {f : FlowId} {c : Crossings} (h : ∀ e ∈ c, e.1 ≠ f) :
    uncross f c = c := by
  induction c with
  | nil => rfl
  | cons e others ih =>
    rw [uncross, if_neg (h e List.mem_cons_self),
      ih fun e' he' ↦ h e' (List.mem_cons_of_mem _ he')]

/-- The flows of a list are listed with the lowest one first. -/
def Ascending (flows : List FlowId) : Prop :=
  flows.Pairwise fun f g ↦ f.index < g.index

theorem ascending_range (n : Nat) : Ascending (Id.range n) :=
  List.pairwise_map.2 List.pairwise_lt_range

theorem Ascending.not_mem {f : FlowId} {flows : List FlowId} (h : Ascending (f :: flows)) :
    f ∉ flows := fun hf ↦
  absurd ((List.pairwise_cons.1 h).1 f hf) (Nat.lt_irrefl _)

theorem cross_listed {times : FlowId → Nat} {f : FlowId} {flows : List FlowId}
    (ha : Ascending flows) (hf : f ∈ flows) :
    cross f (listed times flows) = listed (Function.update times f (times f + 1)) flows := by
  induction flows with
  | nil => exact absurd hf List.not_mem_nil
  | cons g flows ih =>
    obtain ⟨hlt, ha'⟩ := List.pairwise_cons.1 ha
    rcases eq_or_ne g f with rfl | hgf
    · -- the flow is in front: what follows is above it
      have hne : Function.update times g (times g + 1) g ≠ 0 := by simp
      rw [listed_cons_of_ne_zero hne, listed_update_of_not_mem ha.not_mem, Function.update_self]
      by_cases h0 : times g = 0
      · rw [listed_cons_of_zero h0, h0,
          cross_of_forall_lt fun e he ↦ hlt e.1 (mem_of_mem_listed he)]
      · rw [listed_cons_of_ne_zero h0, cross, if_neg (Nat.lt_irrefl _), if_pos rfl]
    · have hf' : f ∈ flows := (List.mem_cons.1 hf).resolve_left hgf.symm
      have hnlt : ¬ f.index < g.index := Nat.not_lt.2 (Nat.le_of_lt (hlt f hf'))
      have hg : Function.update times f (times f + 1) g = times g := Function.update_of_ne hgf ..
      by_cases h0 : times g = 0
      · rw [listed_cons_of_zero h0, listed_cons_of_zero (hg.trans h0), ih ha' hf']
      · rw [listed_cons_of_ne_zero h0, listed_cons_of_ne_zero (hg ▸ h0), cross, if_neg hnlt,
          if_neg hgf, ih ha' hf', hg]

theorem uncross_listed {times : FlowId → Nat} {f : FlowId} {flows : List FlowId}
    (ha : Ascending flows) (hf : f ∈ flows) :
    uncross f (listed times flows) = listed (Function.update times f (times f - 1)) flows := by
  induction flows with
  | nil => exact absurd hf List.not_mem_nil
  | cons g flows ih =>
    obtain ⟨hlt, ha'⟩ := List.pairwise_cons.1 ha
    rcases eq_or_ne g f with rfl | hgf
    · have hrest : uncross g (listed times flows) = listed times flows :=
        uncross_of_forall_ne fun e he heg ↦ ha.not_mem (heg ▸ mem_of_mem_listed he)
      have hself : Function.update times g (times g - 1) g = times g - 1 := Function.update_self ..
      by_cases h0 : times g = 0
      · have hself0 : Function.update times g (times g - 1) g = 0 := by omega
        rw [listed_cons_of_zero h0, listed_cons_of_zero hself0,
          listed_update_of_not_mem ha.not_mem, hrest]
      · rw [listed_cons_of_ne_zero h0, uncross, if_pos rfl]
        by_cases h1 : times g ≤ 1
        · have hself0 : Function.update times g (times g - 1) g = 0 := by omega
          rw [if_pos h1, listed_cons_of_zero hself0, listed_update_of_not_mem ha.not_mem]
        · have hself1 : Function.update times g (times g - 1) g ≠ 0 := by omega
          rw [if_neg h1, listed_cons_of_ne_zero hself1, listed_update_of_not_mem ha.not_mem, hself]
    · have hf' : f ∈ flows := (List.mem_cons.1 hf).resolve_left hgf.symm
      have hg : Function.update times f (times f - 1) g = times g := Function.update_of_ne hgf ..
      by_cases h0 : times g = 0
      · rw [listed_cons_of_zero h0, listed_cons_of_zero (hg.trans h0), ih ha' hf']
      · rw [listed_cons_of_ne_zero h0, listed_cons_of_ne_zero (hg ▸ h0), uncross, if_neg hgf,
          ih ha' hf', hg]

/-- A flow is listed with the number of times that it crosses, if it does. -/
theorem mem_ofTimes {flows : Nat} {times : FlowId → Nat} {f : FlowId} {n : Nat} :
    (f, n) ∈ ofTimes flows times ↔ f.index < flows ∧ 0 < n ∧ times f = n := by
  rw [ofTimes, listed, List.mem_filterMap]
  constructor
  · rintro ⟨g, hg, hgf⟩
    split at hgf
    · cases hgf
    · rename_i h0
      cases hgf
      exact ⟨Id.mem_range.1 hg, Nat.pos_of_ne_zero h0, rfl⟩
  · rintro ⟨hf, hn, rfl⟩
    exact ⟨f, Id.mem_range.2 hf, if_neg (Nat.ne_of_gt hn)⟩

theorem ascending_ofTimes (flows : Nat) (times : FlowId → Nat) :
    Ascending ((ofTimes flows times).map Prod.fst) := by
  have hsub : (ofTimes flows times).map Prod.fst =
      (Id.range flows).filter fun f ↦ times f ≠ 0 := by
    rw [ofTimes, listed, List.map_filterMap, ← List.filterMap_eq_filter]
    refine List.filterMap_congr fun f _ ↦ ?_
    by_cases h0 : times f = 0 <;> simp [h0, Option.guard]
  rw [hsub]
  exact List.Pairwise.filter _ (ascending_range flows)

/-- **One crossing more.** Only the number of that flow changes. -/
theorem cross_ofTimes {flows : Nat} {f : FlowId} (hf : f.index < flows) (times : FlowId → Nat) :
    cross f (ofTimes flows times) = ofTimes flows (Function.update times f (times f + 1)) :=
  cross_listed (ascending_range flows) (Id.mem_range.2 hf)

/-- **One crossing less.** Only the number of that flow changes, and not below zero. -/
theorem uncross_ofTimes {flows : Nat} {f : FlowId} (hf : f.index < flows) (times : FlowId → Nat) :
    uncross f (ofTimes flows times) = ofTimes flows (Function.update times f (times f - 1)) :=
  uncross_listed (ascending_range flows) (Id.mem_range.2 hf)

end Crossings

namespace RouteTable

/-! ### Crossings along a route -/

/-- The crossings of every link, given how often each flow crosses it. -/
def index (flows links : Nat) (times : LinkId → FlowId → Nat) : Array Crossings :=
  .ofFn fun l : Fin links ↦ Crossings.ofTimes flows (times ⟨l⟩)

@[simp] theorem size_index (flows links : Nat) (times : LinkId → FlowId → Nat) :
    (index flows links times).size = links :=
  Array.size_ofFn

theorem getElem?_index {flows links : Nat} (times : LinkId → FlowId → Nat) {l : LinkId}
    (hl : l.index < links) :
    (index flows links times)[l.index]? = some (Crossings.ofTimes flows (times l)) := by
  rw [index, Array.getElem?_ofFn, dif_pos hl]

/-- Changing the crossings of one link changes the numbers of that link only. -/
theorem setIfInBounds_index {flows links : Nat} (times : LinkId → FlowId → Nat) (l : LinkId)
    (numbers : FlowId → Nat) :
    (index flows links times).setIfInBounds l.index (Crossings.ofTimes flows numbers) =
      index flows links (Function.update times l numbers) := by
  refine Array.ext (by simp) fun i hi _ ↦ ?_
  rw [Array.getElem_setIfInBounds (by simpa using hi)]
  simp only [index, Array.getElem_ofFn]
  split <;> rename_i h
  · rw [show (⟨i⟩ : LinkId) = l from congrArg Id.mk h.symm, Function.update_self]
  · rw [Function.update_of_ne fun e ↦ h (congrArg Id.index e).symm]

/-- **Crossings along a route.** A change that steps the number of one flow is made on every link as
often as the route takes it. -/
theorem alongRoute_index {α : Type} {flows links : Nat} {f : FlowId}
    {change : Crossings → Crossings} (step : Nat → Nat)
    (hchange : ∀ numbers : FlowId → Nat, change (Crossings.ofTimes flows numbers) =
      Crossings.ofTimes flows (Function.update numbers f (step (numbers f))))
    {route : Route} (hroute : ∀ l ∈ route, l.index < links) (times : LinkId → FlowId → Nat) :
    (alongRoute change route (index flows links times) : Attempt α (Array Crossings)) =
      .ok (index flows links fun l ↦
        Function.update (times l) f (step^[route.count l] (times l f))) := by
  induction route generalizing times with
  | nil => simp [alongRoute]
  | cons k route ih =>
    have hk : (Attempt.entry (index flows links times) k : Attempt α Crossings) =
        .ok (Crossings.ofTimes flows (times k)) :=
      Attempt.entry_eq_ok_iff.2 (getElem?_index times (hroute k List.mem_cons_self))
    rw [alongRoute, hk, Attempt.ok_bind, hchange, setIfInBounds_index,
      ih fun l hl ↦ hroute l (List.mem_cons_of_mem _ hl)]
    congr 2
    funext l
    rcases eq_or_ne l k with rfl | hlk
    · rw [Function.update_self, Function.update_idem, Function.update_self, List.count_cons_self,
        Function.iterate_succ_apply]
    · rw [Function.update_of_ne hlk, List.count_cons_of_ne hlk.symm]

/-! ### Tables -/

/-- How often the route of a flow takes a link. -/
def times (routes : Array Route) (l : LinkId) (f : FlowId) : Nat :=
  (routes[f.index]?.getD []).count l

/-- The table of given routes. -/
def ofRoutes (routes : Array Route) (links : Nat) : RouteTable :=
  ⟨routes, index routes.size links (times routes)⟩

@[simp] theorem routes_ofRoutes (routes : Array Route) (links : Nat) :
    (ofRoutes routes links).routes = routes := rfl

theorem empty_eq_ofRoutes (flows links : Nat) :
    empty flows links = ofRoutes (Array.replicate flows []) links := by
  have hzero : ∀ l f, times (Array.replicate flows []) l f = 0 := by
    intro l f
    rw [times, Array.getElem?_replicate]
    split <;> rfl
  refine congrArg (RouteTable.mk _) (Array.ext (by simp) fun i _ _ ↦ ?_)
  simp [index, Crossings.ofTimes, Crossings.listed, hzero]

/-- The links of all routes exist. -/
def Over (links : Nat) (routes : Array Route) : Prop :=
  ∀ {f : FlowId} {route : Route}, routes[f.index]? = some route → ∀ l ∈ route, l.index < links

/-- Empty routes take no links at all. -/
theorem over_replicate (flows links : Nat) : Over links (Array.replicate flows []) := by
  intro f route hroute
  rw [Array.getElem?_replicate] at hroute
  split at hroute
  · cases hroute
    simp
  · cases hroute

/-- A route may be exchanged for another one over existing links. -/
theorem Over.set {routes : Array Route} {links : Nat} (h : Over links routes) (f : FlowId)
    {route : Route}
    (hroute : ∀ l ∈ route, l.index < links) : Over links (routes.setIfInBounds f.index route) := by
  intro g r hr
  rw [Array.getElem?_setIfInBounds] at hr
  split at hr
  · split at hr
    · cases hr
      exact hroute
    · cases hr
  · exact h hr

/-- How often the flows take a link after one route was exchanged for another one. -/
theorem times_setIfInBounds {routes : Array Route} {f : FlowId} (hf : f.index < routes.size)
    (route : Route) (l : LinkId) :
    times (routes.setIfInBounds f.index route) l =
      Function.update (times routes l) f (route.count l) := by
  funext g
  rcases eq_or_ne g f with rfl | hgf
  · rw [Function.update_self, times, Array.getElem?_setIfInBounds_self_of_lt hf, Option.getD_some]
  · have hne : f.index ≠ g.index := fun e ↦ hgf (congrArg Id.mk e.symm)
    rw [Function.update_of_ne hgf, times, Array.getElem?_setIfInBounds_ne hne, times]

/-- **Replacing a route.** The table of some routes becomes the table of the routes with one of
them replaced, and the route that was there before is given back. -/
theorem replace_ofRoutes {α : Type} {routes : Array Route} {links : Nat} {f : FlowId}
    {old route : Route} (hold : routes[f.index]? = some old) (hin : ∀ l ∈ old, l.index < links)
    (hroute : ∀ l ∈ route, l.index < links) :
    ((ofRoutes routes links).replace f route : Attempt α (Route × RouteTable)) =
      .ok (old, ofRoutes (routes.setIfInBounds f.index route) links) := by
  have hf : f.index < routes.size := (Array.getElem?_eq_some_iff.1 hold).1
  have hentry : ((ofRoutes routes links).route f : Attempt α Route) = .ok old :=
    Attempt.entry_eq_ok_iff.2 hold
  have hnone : ∀ l, Nat.pred^[old.count l] (times routes l f) = 0 := by
    intro l
    rw [Nat.pred_iterate, times, hold, Option.getD_some, Nat.sub_self]
  rw [replace, hentry, Attempt.ok_bind, ofRoutes,
    alongRoute_index Nat.pred (Crossings.uncross_ofTimes hf) hin, Attempt.ok_bind,
    alongRoute_index Nat.succ (Crossings.cross_ofTimes hf) hroute, Attempt.ok_bind]
  simp only [hnone, Function.update_self, Function.update_idem, Nat.succ_iterate, Nat.zero_add]
  rw [ofRoutes, Array.size_setIfInBounds]
  congr 4
  funext l
  exact (times_setIfInBounds hf route l).symm

theorem lt_of_alongRoute_eq_ok {α : Type} {change : Crossings → Crossings} {route : Route}
    {table table' : Array Crossings}
    (h : (alongRoute change route table : Attempt α (Array Crossings)) = .ok table') :
    table'.size = table.size ∧ ∀ l ∈ route, l.index < table.size := by
  induction route generalizing table with
  | nil =>
    cases h
    exact ⟨rfl, by simp⟩
  | cons k route ih =>
    obtain ⟨c, hc, h⟩ := Attempt.bind_eq_ok_iff.1 h
    obtain ⟨hsize, hroute⟩ := ih h
    have hk := (Array.getElem?_eq_some_iff.1 (Attempt.entry_eq_ok_iff.1 hc)).1
    rw [Array.size_setIfInBounds] at hsize hroute
    exact ⟨hsize, List.forall_mem_cons.2 ⟨hk, hroute⟩⟩

/-- What can be stored takes existing links only. -/
theorem lt_of_replace_eq_ok {α : Type} {routes : Array Route} {links : Nat} {f : FlowId}
    {old route : Route} {t : RouteTable}
    (h : ((ofRoutes routes links).replace f route : Attempt α (Route × RouteTable)) =
      .ok (old, t)) : routes[f.index]? = some old ∧ ∀ l ∈ route, l.index < links := by
  obtain ⟨old', hold, h⟩ := Attempt.bind_eq_ok_iff.1 h
  obtain ⟨without, hwithout, h⟩ := Attempt.bind_eq_ok_iff.1 h
  obtain ⟨crossings, hcrossings, h⟩ := Attempt.bind_eq_ok_iff.1 h
  cases h
  have hsize : without.size = links :=
    (lt_of_alongRoute_eq_ok hwithout).1.trans (size_index ..)
  exact ⟨Attempt.entry_eq_ok_iff.1 hold, hsize ▸ (lt_of_alongRoute_eq_ok hcrossings).2⟩

theorem neverFails_alongRoute {α : Type} (change : Crossings → Crossings) (route : Route)
    (table : Array Crossings) :
    (alongRoute change route table : Attempt α (Array Crossings)).NeverFails := by
  induction route generalizing table with
  | nil => exact Attempt.neverFails_ok table
  | cons l route ih => exact (Attempt.neverFails_entry table l).bind fun _ ↦ ih _

/-- A route is stored or there is a fault. -/
theorem neverFails_replace {α : Type} (t : RouteTable) (f : FlowId) (route : Route) :
    (t.replace f route : Attempt α (Route × RouteTable)).NeverFails :=
  (Attempt.neverFails_entry t.routes f).bind fun _ ↦
    (neverFails_alongRoute _ _ _).bind fun _ ↦ (neverFails_alongRoute _ _ _).bind fun _ ↦
      Attempt.neverFails_ok _

end RouteTable

end NetOnChip
