import NetOnChip.Proofs.Routing.Marks
import NetOnChip.Routing.DimensionOrder

/-!
# Dimension-ordered routes are walks

In a well-formed and closed topology dimension-ordered routing never looks past the end of a table,
and the route that it may find leads from the source to the sink (`route_ensures`).
-/

namespace NetOnChip

namespace DimensionOrder

variable {α : Type} {t : Topology α} {source sink : RouterId}

/-- The nearest hop is one of the hops. -/
theorem mem_of_nearest? {here : Tile} {hops : List Hop} {h : Hop}
    (hnearest : nearest? here hops = some h) : h ∈ hops := by
  induction hops generalizing h with
  | nil => cases hnearest
  | cons g hops ih =>
    rw [nearest?] at hnearest
    split at hnearest
    · cases hnearest
      exact List.mem_cons_self
    · rename_i f hf
      split at hnearest <;> cases hnearest
      · exact List.mem_cons_of_mem g (ih hf)
      · exact List.mem_cons_self

/-- There is a nearest hop unless there is none at all. -/
theorem nearest?_eq_none_iff {here : Tile} {hops : List Hop} :
    nearest? here hops = none ↔ hops = [] := by
  cases hops with
  | nil => exact iff_of_true rfl rfl
  | cons h hops =>
    refine iff_of_false (fun hnone ↦ ?_) (List.cons_ne_nil h hops)
    rw [nearest?] at hnone
    split at hnone
    · cases hnone
    · split at hnone <;> cases hnone

/-- A hop from one router to another over a link between them. -/
def Hop.Leaves (t : Topology α) (here : RouterId) (h : Hop) : Prop :=
  ∃ link next, t.links[h.link.index]? = some link ∧ link.source = here ∧ link.sink = h.next ∧
    t.routers[h.next.index]? = some next ∧ h.tile = next.tile

/-- The hops at a router follow the links that leave it, in the order of these. -/
theorem hops_yields (hc : t.Closed) {here : RouterId} {links : List LinkId}
    (hlinks : ∀ l ∈ links, t.leaves here l = true) :
    (hops t links).Yields fun hs ↦ hs.map (·.link) = links ∧ ∀ h ∈ hs, h.Leaves t here := by
  induction links with
  | nil => exact ⟨[], rfl, rfl, fun _ h ↦ absurd h List.not_mem_nil⟩
  | cons l links ih =>
    obtain ⟨hl, hlinks⟩ := List.forall_mem_cons.1 hlinks
    obtain ⟨link, hlink, hsource⟩ := Topology.leaves_iff.1 hl
    have hlt : link.sink.index < t.routers.size := hc link (Array.mem_of_getElem? hlink)
    have hfound : t.link l = .ok link := Attempt.entry_eq_ok_iff.2 hlink
    have hhop : (hop t l).Yields fun h ↦ h.link = l ∧ h.Leaves t here := by
      rw [hop, hfound, Attempt.ok_bind]
      exact (Attempt.yields_entry hlt).bind fun next hnext ↦
        ⟨_, rfl, rfl, link, next, hlink, hsource, rfl, hnext, rfl⟩
    refine hhop.bind fun h ⟨hhl, hh⟩ ↦ (ih hlinks).bind fun hs ⟨hhsl, hhs⟩ ↦ ⟨_, rfl, ?_, ?_⟩
    · rw [List.map_cons, hhl, hhsl]
    · exact List.forall_mem_cons.2 ⟨hh, hhs⟩

/-- What happens at a router: the route ends, or it goes on with the nearest hop straight ahead, if
there is one and it leads to a router that was not visited. -/
theorem walk_eq (fuel : Nat) (visited : Array Bool) (here : RouterId) (trail : Route) :
    walk t source sink fuel visited here trail =
      (if here = sink then
        .ok trail.reverse
      else do
        let place := (← t.router here).tile
        let direction := heading place (← t.router sink).tile
        let options ← hops t (← t.outgoing here)
        match nearest? place (options.filter fun h ↦ isAhead direction place h.tile) with
        | none =>
          Attempt.fail (.routingFailed .dimensionOrder source sink (.noLinkHeading here direction))
        | some h =>
          if ← Attempt.entry visited h.next then
            Attempt.fail (.routingFailed .dimensionOrder source sink (.revisits h.next))
          else
            match fuel with
            | 0 => Attempt.crash .stepsExhausted
            | fuel + 1 =>
              walk t source sink fuel (visited.setIfInBounds h.next.index true) h.next
                (h.link :: trail)) := by
  cases fuel <;> (delta walk; rfl)

/-- A route ends at the sink. -/
theorem walk_sink (fuel : Nat) (visited : Array Bool) (trail : Route) :
    walk t source sink fuel visited sink trail = .ok trail.reverse := by
  rw [walk_eq]
  exact if_pos rfl

section Step

variable {here : RouterId} {router target : Router α} {links : List LinkId} {options : List Hop}
  {visited : Array Bool} {trail : Route}

/-- The hop that is taken at a router, if there is one. -/
def chosen (router target : Router α) (options : List Hop) : Option Hop :=
  nearest? router.tile
    (options.filter fun h ↦ isAhead (heading router.tile target.tile) router.tile h.tile)

variable (hne : here ≠ sink) (hrouter : t.routers[here.index]? = some router)
  (htarget : t.routers[sink.index]? = some target) (hlinks : t.outgoing here = .ok links)
  (hoptions : hops t links = .ok options)

include hne hrouter htarget hlinks hoptions

theorem walk_of_ne (fuel : Nat) :
    walk t source sink fuel visited here trail =
      (match chosen router target options with
      | none => Attempt.fail (.routingFailed .dimensionOrder source sink
          (.noLinkHeading here (heading router.tile target.tile)))
      | some h => do
        if ← Attempt.entry visited h.next then
          Attempt.fail (.routingFailed .dimensionOrder source sink (.revisits h.next))
        else
          match fuel with
          | 0 => Attempt.crash .stepsExhausted
          | fuel + 1 =>
            walk t source sink fuel (visited.setIfInBounds h.next.index true) h.next
              (h.link :: trail)) := by
  have hrouter' : t.router here = .ok router := Attempt.entry_eq_ok_iff.2 hrouter
  have htarget' : t.router sink = .ok target := Attempt.entry_eq_ok_iff.2 htarget
  rw [walk_eq, if_neg hne, hrouter', Attempt.ok_bind, htarget', Attempt.ok_bind, hlinks,
    Attempt.ok_bind, hoptions, Attempt.ok_bind]
  rfl

/-- There may be no link that leads straight ahead. -/
theorem walk_stuck (hnone : chosen router target options = none) (fuel : Nat) :
    walk t source sink fuel visited here trail =
      .error (.error (.routingFailed .dimensionOrder source sink
        (.noLinkHeading here (heading router.tile target.tile)))) := by
  rw [walk_of_ne hne hrouter htarget hlinks hoptions, hnone]
  rfl

/-- The nearest router straight ahead may be one that was visited. -/
theorem walk_revisits {h : Hop} (hsome : chosen router target options = some h)
    (hseen : visited[h.next.index]? = some true) (fuel : Nat) :
    walk t source sink fuel visited here trail =
      .error (.error (.routingFailed .dimensionOrder source sink (.revisits h.next))) := by
  have hentry : (Attempt.entry visited h.next : Attempt α Bool) = .ok true :=
    Attempt.entry_eq_ok_iff.2 hseen
  rw [walk_of_ne hne hrouter htarget hlinks hoptions, hsome]
  show (Attempt.entry visited h.next >>= _) = _
  rw [hentry]
  rfl

/-- Otherwise the route goes on from there. -/
theorem walk_next {h : Hop} (hsome : chosen router target options = some h)
    (hnew : visited[h.next.index]? = some false) (fuel : Nat) :
    walk t source sink (fuel + 1) visited here trail =
      walk t source sink fuel (visited.setIfInBounds h.next.index true) h.next
        (h.link :: trail) := by
  have hentry : (Attempt.entry visited h.next : Attempt α Bool) = .ok false :=
    Attempt.entry_eq_ok_iff.2 hnew
  rw [walk_of_ne hne hrouter htarget hlinks hoptions, hsome]
  show (Attempt.entry visited h.next >>= _) = _
  rw [hentry]
  rfl

end Step

/-- The hop that is taken is one of those that are possible. -/
theorem mem_of_chosen {router target : Router α} {options : List Hop} {h : Hop}
    (hsome : chosen router target options = some h) : h ∈ options :=
  (List.mem_filter.1 (mem_of_nearest? hsome)).1

/-- **A walk that came to a router over visited ones** goes on to a path or ends with an error, and
more steps make no difference. -/
theorem walk_cases (hw : t.WellFormed) (hc : t.Closed) (hsink : sink.index < t.routers.size)
    {visited : Array Bool} {here : RouterId} {trail : Route}
    (hvisited : visited.size = t.routers.size) (hhere : t.Marked source visited trail here)
    (fuel : Nat) (hfuel : visited.count false ≤ fuel) :
    (∀ more, walk t source sink (more + fuel) visited here trail =
        walk t source sink fuel visited here trail) ∧
      ((∃ found, t.Path source found sink ∧
          walk t source sink fuel visited here trail = .ok found) ∨
        ∃ why, walk t source sink fuel visited here trail =
          .error (.error (.routingFailed .dimensionOrder source sink why))) := by
  have hlt : here.index < t.routers.size :=
    hvisited ▸ (Array.getElem?_eq_some_iff.1 hhere.here_marked).1
  by_cases hne : here = sink
  · subst hne
    exact ⟨fun more ↦ (walk_sink ..).trans (walk_sink ..).symm, .inl ⟨_, hhere.path, walk_sink ..⟩⟩
  · have hrouter := Array.getElem?_eq_getElem hlt
    have htarget := Array.getElem?_eq_getElem hsink
    have hlinks := hw.outgoing_eq here hlt
    obtain ⟨options, hoptions, -, hleaves⟩ := hops_yields hc (t.leaves_of_listed here)
    cases hsome : chosen t.routers[here.index] t.routers[sink.index] options with
    | none =>
      have hstuck : ∀ fuel, walk t source sink fuel visited here trail = _ :=
        walk_stuck hne hrouter htarget hlinks hoptions hsome
      exact ⟨fun more ↦ (hstuck _).trans (hstuck _).symm, .inr ⟨_, hstuck _⟩⟩
    | some h =>
      obtain ⟨link, next, hlink, hsource, hnext, hrouter', -⟩ := hleaves h (mem_of_chosen hsome)
      obtain ⟨seen, hseen⟩ : ∃ seen, visited[h.next.index]? = some seen :=
        ⟨_, Array.getElem?_eq_getElem (hvisited ▸ (Array.getElem?_eq_some_iff.1 hrouter').1)⟩
      cases seen with
      | true =>
        have hrevisits : ∀ fuel, walk t source sink fuel visited here trail = _ :=
          walk_revisits hne hrouter htarget hlinks hoptions hsome hseen
        exact ⟨fun more ↦ (hrevisits _).trans (hrevisits _).symm, .inr ⟨_, hrevisits _⟩⟩
      | false =>
        have hstep : ∀ fuel, walk t source sink (fuel + 1) visited here trail = _ :=
          walk_next hne hrouter htarget hlinks hoptions hsome hseen
        have hcount := count_false_setIfInBounds hseen
        have hmarked := hhere.extend hlink hsource (hnext ▸ hseen)
        rw [hnext] at hmarked
        -- there is a step left, because the next router is still without a mark
        match fuel with
        | 0 => omega
        | fuel + 1 =>
          obtain ⟨hmore, hcases⟩ := walk_cases hw hc hsink (by simpa using hvisited) hmarked
            fuel (by omega)
          rw [hstep fuel]
          exact ⟨fun more ↦ (hstep (more + fuel)).trans (hmore more), hcases⟩

/-! ### Routes -/

/-- A route that is found within a number of steps. -/
def routeWithin (fuel : Nat) (t : Topology α) (source sink : RouterId) : Attempt α Route := do
  let _ ← t.router source
  let visited := (Array.replicate t.routers.size false).setIfInBounds source.index true
  walk t source sink fuel visited source []

theorem routeWithin_eq_walk (hsource : source.index < t.routers.size) (fuel : Nat) :
    routeWithin fuel t source sink =
      walk t source sink fuel
        ((Array.replicate t.routers.size false).setIfInBounds source.index true) source [] := by
  have hrouter : t.router source = .ok t.routers[source.index] :=
    Attempt.entry_eq_ok_iff.2 (Array.getElem?_eq_getElem hsource)
  rw [routeWithin, hrouter]
  rfl

/-- **Dimension-ordered routing** ends with a path from the source to the sink, or there is no
route; and more steps than there are routers make no difference. -/
theorem routeWithin_cases (hw : t.WellFormed) (hc : t.Closed)
    (hsource : source.index < t.routers.size) (hsink : sink.index < t.routers.size) {fuel : Nat}
    (hfuel : t.routers.size ≤ fuel) :
    routeWithin fuel t source sink = route t source sink ∧
      ((∃ found, t.Path source found sink ∧ route t source sink = .ok found) ∨
        ∃ why, route t source sink =
          .error (.error (.routingFailed .dimensionOrder source sink why))) := by
  have hmarked : ((Array.replicate t.routers.size false).setIfInBounds source.index
      true)[source.index]? = some true := by simp [hsource]
  have hcount : ((Array.replicate t.routers.size false).setIfInBounds source.index true).count
      false ≤ t.routers.size := Nat.le_trans Array.count_le_size (by simp)
  obtain ⟨hmore, hcases⟩ := walk_cases hw hc hsink (by simp) (.start hmarked) _ hcount
  have hroute : route t source sink = _ := routeWithin_eq_walk hsource t.routers.size
  have hmore := hmore (fuel - t.routers.size)
  rw [Nat.sub_add_cancel hfuel] at hmore
  rw [hroute, routeWithin_eq_walk hsource, hmore]
  exact ⟨rfl, hcases⟩

/-- **Dimension-ordered routing** ends with a walk from the source to the sink or with an error. -/
theorem route_ensures (hw : t.WellFormed) (hc : t.Closed) (hsource : source.index < t.routers.size)
    (hsink : sink.index < t.routers.size) :
    (route t source sink).Ensures fun route ↦ t.Walk source route sink := by
  rcases (routeWithin_cases hw hc hsource hsink (Nat.le_refl _)).2
    with ⟨_, hpath, heq⟩ | ⟨_, heq⟩
  · rw [heq]
    exact hpath.walk
  · rw [heq]
    trivial

end DimensionOrder

end NetOnChip
