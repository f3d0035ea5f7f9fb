import NetOnChip.Proofs.Topology.Linked
import NetOnChip.Proofs.Topology.Lookup
import NetOnChip.Scalar.Exact
import NetOnChip.Storage

/-!
# What storages hold

A storage that was made by additions is known by its *records*: the routers that were accepted, each
with the identifier that it was given, and the links that were added (`Storage.Records`). As long as
all numbers are words, one addition does to the stored topology what it does to topologies, and it
leaves the two dictionaries in step with it (`Records.extend`). Any additions follow by induction
(`Records.extendAll`), and what the look-ups find can be read off the records (`lookups_exact`).

Additions that a topology takes without a failure are taken by its storage as well
(`Records.addAll`), so a mesh is stored as it is built if all its links are words
(`MeshSettings.store_of_build`), and only then (`MeshSettings.exists_store_iff`).
-/

namespace NetOnChip

namespace Addition

variable {α : Type}

/-- Links leave routers that exist by then. -/
def Sourced (t : Topology α) : Addition α → Prop
  | router .. => True
  | link source .. => source.index < t.routers.size
  | linkPair a b .. => a.index < t.routers.size ∧ b.index < t.routers.size

instance (t : Topology α) : (a : Addition α) → Decidable (a.Sourced t)
  | router .. => inferInstanceAs (Decidable True)
  | link source .. => inferInstanceAs (Decidable (source.index < _))
  | linkPair a b .. => inferInstanceAs (Decidable (a.index < _ ∧ b.index < _))

/-- The routers to be added. -/
def routers : Addition α → List (Router α)
  | router userId tile latency => [⟨userId, tile, latency⟩]
  | link .. => []
  | linkPair .. => []

/-- The links to be added. -/
def links : Addition α → List (Link α)
  | router .. => []
  | link source sink bandwidth latency => [⟨source, sink, bandwidth, latency⟩]
  | linkPair a b bandwidth latency => [⟨a, b, bandwidth, latency⟩, ⟨b, a, bandwidth, latency⟩]

/-- There are words left to number what is added. -/
structure Numbered (t : Topology α) (a : Addition α) : Prop where
  /-- The routers can be numbered, -/
  routers : t.routers.size + a.routers.length ≤ UInt32.size
  /-- and the links. -/
  links : t.links.size + a.links.length ≤ UInt32.size

end Addition

/-! ### Additions to topologies -/

namespace Topology

variable {α : Type} {t t' : Topology α} {a : Addition α}

theorem addRouter_eq_of_add {userId : Int32} {tile : Tile} {latency : α}
    (h : t.add (.router userId tile latency) = .ok t') :
    t.addRouter userId tile latency = .ok (⟨t.routers.size⟩, t') := by
  obtain ⟨⟨r, _⟩, hadd, h⟩ := Attempt.bind_eq_ok_iff.1 h
  cases h
  obtain ⟨-, rfl, -⟩ := addRouter_eq_ok_iff.1 hadd
  exact hadd

theorem addLink_eq_of_add {source sink : RouterId} {bandwidth latency : α}
    (h : t.add (.link source sink bandwidth latency) = .ok t') :
    ∃ l, t.addLink source sink bandwidth latency = .ok (l, t') := by
  obtain ⟨⟨l, _⟩, hadd, h⟩ := Attempt.bind_eq_ok_iff.1 h
  cases h
  exact ⟨l, hadd⟩

theorem addLinkPair_eq_of_add {a b : RouterId} {bandwidth latency : α}
    (h : t.add (.linkPair a b bandwidth latency) = .ok t') :
    ∃ pair, t.addLinkPair a b bandwidth latency = .ok (pair, t') := by
  obtain ⟨⟨pair, _⟩, hadd, h⟩ := Attempt.bind_eq_ok_iff.1 h
  cases h
  exact ⟨pair, hadd⟩

/-- A link is only added if it leaves an existing router. -/
theorem WellFormed.source_lt_of_addLink (hw : t.WellFormed) {l : LinkId} {source sink : RouterId}
    {bandwidth latency : α} (h : t.addLink source sink bandwidth latency = .ok (l, t')) :
    source.index < t.routers.size := by
  obtain ⟨before, hbefore, -, -⟩ := addLink_eq_ok h
  exact hw.size_departures ▸ (Array.getElem?_eq_some_iff.1 hbefore).1

/-- **An addition that succeeds** was in order, and nothing else was added. -/
theorem Built.of_add (h : t.Built) (hadd : t.add a = .ok t') :
    t'.Built ∧ a.Sourced t ∧ t'.routers.size = t.routers.size + a.routers.length ∧
      t'.links.size = t.links.size + a.links.length := by
  have hw := h.wellFormed
  cases a with
  | router userId tile latency =>
    have hrouter := addRouter_eq_of_add hadd
    refine ⟨h.addRouter hrouter, trivial, ?_⟩
    simp [addRouter_eq_ok hrouter, Addition.routers, Addition.links]
  | link source sink bandwidth latency =>
    obtain ⟨l, hlink⟩ := addLink_eq_of_add hadd
    refine ⟨h.addLink hlink, hw.source_lt_of_addLink hlink, ?_⟩
    obtain ⟨before, -, -, rfl⟩ := addLink_eq_ok hlink
    simp [Addition.routers, Addition.links]
  | linkPair a b bandwidth latency =>
    obtain ⟨pair, hpair⟩ := addLinkPair_eq_of_add hadd
    obtain ⟨t₁, hthere, hback⟩ := addLinkPair_eq_ok hpair
    have ha := hw.source_lt_of_addLink hthere
    have hb := (hw.addLink hthere).source_lt_of_addLink hback
    obtain ⟨_, -, -, rfl⟩ := addLink_eq_ok hthere
    refine ⟨h.addLinkPair hpair, ⟨ha, hb⟩, ?_⟩
    obtain ⟨_, -, -, rfl⟩ := addLink_eq_ok hback
    simp [Addition.routers, Addition.links]

/-- Additions in a row take nothing away. -/
theorem Built.le_of_foldlM_add {additions : List (Addition α)} (h : t.Built)
    (hadd : additions.foldlM Topology.add t = .ok t') :
    t.routers.size ≤ t'.routers.size ∧ t.links.size ≤ t'.links.size := by
  induction additions generalizing t with
  | nil =>
    cases hadd
    exact ⟨Nat.le_refl _, Nat.le_refl _⟩
  | cons a additions ih =>
    rw [List.foldlM_cons] at hadd
    obtain ⟨t₁, hfirst, hrest⟩ := Attempt.bind_eq_ok_iff.1 hadd
    obtain ⟨hbuilt, -, hrouters, hlinks⟩ := h.of_add hfirst
    obtain ⟨hrouters', hlinks'⟩ := ih hbuilt hrest
    omega

end Topology

/-! ### Additions to storages -/

namespace Storage

variable {α : Type} [Scalar α] {n : Storage α}

/-- The router that is accepted, with the identifier that it is given. -/
def acceptedBy (n : Storage α) : Addition α → List (RouterId × Router α)
  | .router userId tile latency =>
    match (n.addRouter userId tile latency).result with
    | .ok r => [(r, ⟨userId, tile, latency⟩)]
    | .error _ => []
  | .link .. => []
  | .linkPair .. => []

/-- The routers that are accepted, with the identifiers that they are given. -/
def accepted (n : Storage α) : List (Addition α) → List (RouterId × Router α)
  | [] => []
  | a :: additions => n.acceptedBy a ++ accepted (n.extend a).state additions

/-- All links of the additions leave routers that exist by then. -/
def Sourced (n : Storage α) : List (Addition α) → Prop
  | [] => True
  | a :: additions => a.Sourced n.topology ∧ Sourced (n.extend a).state additions

instance decidableSourced (n : Storage α) : (additions : List (Addition α)) →
    Decidable (n.Sourced additions)
  | [] => inferInstanceAs (Decidable True)
  | a :: additions =>
    have := decidableSourced (n.extend a).state additions
    inferInstanceAs (Decidable (a.Sourced n.topology ∧ Sourced (n.extend a).state additions))

theorem sourced_append {before after : List (Addition α)} :
    n.Sourced (before ++ after) ↔ n.Sourced before ∧ (n.extendAll before).Sourced after := by
  induction before generalizing n with
  | nil => simp [Sourced, extendAll]
  | cons a before ih => rw [List.cons_append, Sourced, Sourced, ih, and_assoc]; rfl

theorem accepted_append {before after : List (Addition α)} :
    n.accepted (before ++ after) = n.accepted before ++ (n.extendAll before).accepted after := by
  induction before generalizing n with
  | nil => rfl
  | cons a before ih => rw [List.cons_append, accepted, accepted, ih, List.append_assoc]; rfl

/-- What a storage holds that was made by additions. -/
structure Records (n : Storage α) (routers : List (RouterId × Router α)) (links : List (Link α)) :
    Prop where
  /-- The topology was built. -/
  built : n.topology.Built
  /-- Identifiers were given in order. -/
  ids_eq : routers.map Prod.fst = Id.range n.topology.routers.size
  /-- The routers are there, -/
  routers_eq : routers.map Prod.snd = n.topology.routers.toList
  /-- and the links. -/
  links_eq : links = n.topology.links.toList
  /-- No link is used. -/
  usage_eq : n.usage = Array.replicate n.topology.links.size 0
  /-- The first dictionary tells what a search for the tile would. -/
  routerAt?_eq : ∀ tile, n.routerAt? tile = n.topology.routerAt? tile
  /-- The second one tells the last router that has the user number. -/
  routerWithUserId?_eq : ∀ userId, n.routerWithUserId? userId =
    (routers.reverse.find? fun e ↦ e.2.userId = userId).map Prod.fst

variable {routers : List (RouterId × Router α)} {links : List (Link α)}

theorem records_empty : (empty : Storage α).Records [] [] where
  built := .empty
  ids_eq := rfl
  routers_eq := rfl
  links_eq := rfl
  usage_eq := rfl
  routerAt?_eq _ := (Topology.routerAt?_eq_none_iff.2 (by simp [empty, Topology.empty])).symm
  routerWithUserId?_eq _ := Dictionary.get?_empty

theorem Records.length_routers (h : n.Records routers links) :
    routers.length = n.topology.routers.size := by
  rw [← List.length_map Prod.fst, h.ids_eq, Id.length_range]

theorem Records.length_links (h : n.Records routers links) :
    links.length = n.topology.links.size := by
  rw [h.links_eq, Array.length_toList]

omit [Scalar α] in
/-- A router is not accepted on a tile that has one. -/
theorem addRouter_of_occupied (userId : Int32) {tile : Tile} (latency : α) {r : RouterId}
    (h : n.routerAt? tile = some r) :
    n.addRouter userId tile latency = ⟨n, Attempt.fail (.occupiedTile tile)⟩ :=
  if_pos (Dictionary.contains_iff.2 ⟨r, h⟩)

omit [Scalar α] in
/-- A router is accepted on any other tile. -/
theorem addRouter_of_free (userId : Int32) {tile : Tile} (latency : α)
    (h : n.routerAt? tile = none) :
    n.addRouter userId tile latency =
      ⟨{ n with
          topology := { n.topology with
            routers := n.topology.routers.push ⟨userId, tile, latency⟩
            departures := n.topology.departures.push [] }
          byTile := n.byTile.insert tile (.ofNat n.topology.routers.size)
          byUserId := n.byUserId.insert userId (.ofNat n.topology.routers.size) },
        .ok (.ofNat n.topology.routers.size)⟩ :=
  if_neg (by rw [Dictionary.contains_eq_false_iff.2 h]; decide)

/-- **A router that is accepted** is recorded last, and both dictionaries know it. -/
theorem Records.addRouter (h : n.Records routers links) (userId : Int32) {tile : Tile} (latency : α)
    (hfree : n.routerAt? tile = none) (hfew : n.topology.routers.size < UInt32.size) :
    ∃ n', n.addRouter userId tile latency = ⟨n', .ok ⟨n.topology.routers.size⟩⟩ ∧
      n.topology.addRouter userId tile latency = .ok (⟨n.topology.routers.size⟩, n'.topology) ∧
      n'.Records (routers ++ [(⟨n.topology.routers.size⟩, ⟨userId, tile, latency⟩)]) links := by
  have hadd := Topology.addRouter_of_free userId latency ((h.routerAt?_eq tile).symm.trans hfree)
  have hstore := addRouter_of_free userId latency hfree
  rw [Id.ofNat_of_lt hfew] at hstore
  refine ⟨_, hstore, hadd, h.built.addRouter hadd, ?_, ?_, h.links_eq, h.usage_eq, fun tile' ↦ ?_,
    fun userId' ↦ ?_⟩
  · rw [List.map_append, h.ids_eq, Array.size_push, Id.range_succ]
    rfl
  · rw [List.map_append, h.routers_eq, Array.toList_push]
    rfl
  · rw [Topology.routerAt?_addRouter hadd, ← h.routerAt?_eq]
    exact Dictionary.get?_insert ..
  · rw [List.reverse_concat, List.find?_cons, routerWithUserId?, Dictionary.get?_insert]
    by_cases huser : userId = userId'
    · simp [huser]
    · have hbefore := h.routerWithUserId?_eq userId'
      rw [routerWithUserId?] at hbefore
      simp [huser, hbefore]

/-- **A link that is added** is recorded last. -/
theorem Records.addLink (h : n.Records routers links) {source : RouterId}
    (hsource : source.index < n.topology.routers.size) (sink : RouterId) (bandwidth latency : α)
    (hfew : n.topology.links.size < UInt32.size) :
    ∃ n', n.addLink source sink bandwidth latency = ⟨n', .ok ⟨n.topology.links.size⟩⟩ ∧
      n.topology.addLink source sink bandwidth latency =
        .ok (⟨n.topology.links.size⟩, n'.topology) ∧
      n'.topology.routers = n.topology.routers ∧
      n'.Records routers (links ++ [⟨source, sink, bandwidth, latency⟩]) := by
  have hw := h.built.wellFormed
  obtain ⟨t', hadd, -, -⟩ := Topology.exists_addLink hw hsource sink bandwidth latency
  obtain ⟨before, hbefore, -, rfl⟩ := Topology.addLink_eq_ok hadd
  refine ⟨{ n with
      topology := { n.topology with
        links := n.topology.links.push ⟨source, sink, bandwidth, latency⟩
        departures :=
          n.topology.departures.setIfInBounds source.index (before ++ [⟨n.topology.links.size⟩]) }
      usage := n.usage.push 0 },
    ?_, hadd, rfl, h.built.addLink hadd, h.ids_eq, h.routers_eq, ?_, ?_, h.routerAt?_eq,
    h.routerWithUserId?_eq⟩
  · -- the departures are looked up after the link was added to its table
    have hlisted : Topology.outgoing
        { n.topology with links := n.topology.links.push ⟨source, sink, bandwidth, latency⟩ }
        source = .ok before := Attempt.entry_eq_ok_iff.2 hbefore
    simp only [Storage.addLink, Id.ofNat_of_lt hfew, hlisted]
  · rw [h.links_eq, Array.toList_push]
  · rw [h.usage_eq, Array.size_push, Array.replicate_succ]

/-- **Two links that are added** are recorded last. -/
theorem Records.addLinkPair (h : n.Records routers links) {a b : RouterId}
    (ha : a.index < n.topology.routers.size) (hb : b.index < n.topology.routers.size)
    (bandwidth latency : α) (hfew : n.topology.links.size + 1 < UInt32.size) :
    ∃ pair n', n.addLinkPair a b bandwidth latency = ⟨n', .ok pair⟩ ∧
      n.topology.addLinkPair a b bandwidth latency = .ok (pair, n'.topology) ∧
      n'.Records routers (links ++ [⟨a, b, bandwidth, latency⟩, ⟨b, a, bandwidth, latency⟩]) := by
  obtain ⟨n₁, hthere, hadd₁, hrouters₁, h₁⟩ := h.addLink ha b bandwidth latency (by omega)
  have hlinks₁ : n₁.topology.links.size = n.topology.links.size + 1 := by
    rw [← h₁.length_links, List.length_append, h.length_links]
    rfl
  obtain ⟨n₂, hback, hadd₂, -, h₂⟩ :=
    h₁.addLink (hrouters₁ ▸ hb) a bandwidth latency (hlinks₁ ▸ hfew)
  refine ⟨(⟨n.topology.links.size⟩, ⟨n₁.topology.links.size⟩), n₂, ?_, ?_, by simpa using h₂⟩
  · rw [Storage.addLinkPair, hthere, Outcome.ok_andThen, hback, Outcome.ok_andThen]
  · rw [Topology.addLinkPair, hadd₁, Attempt.ok_bind]
    show (n₁.topology.addLink b a bandwidth latency >>= _) = _
    rw [hadd₂]
    rfl

/-- **An addition** does to the stored topology what it does to topologies, without a fault, and it
is recorded if it is accepted. -/
theorem Records.extend (h : n.Records routers links) {a : Addition α} (ha : a.Sourced n.topology)
    (hids : a.Numbered n.topology) :
    (n.extend a).result.Proper ∧
      n.topology.add a = ((n.extend a).result.map fun _ ↦ (n.extend a).state.topology) ∧
      (n.extend a).state.Records (routers ++ n.acceptedBy a) (links ++ a.links) := by
  obtain ⟨hrouters, hlinks⟩ := hids
  cases a with
  | router userId tile latency =>
    rw [Storage.extend, acceptedBy, Addition.links, List.append_nil, Topology.add]
    cases hat : n.routerAt? tile with
    | some r =>
      have hrefused : n.topology.addRouter userId tile latency =
          Attempt.fail (.occupiedTile tile) :=
        Topology.addRouter_eq_fail_iff.2 ⟨⟨r, (h.routerAt?_eq tile).symm.trans hat⟩, rfl⟩
      rw [addRouter_of_occupied userId latency hat, hrefused]
      exact ⟨Attempt.proper_error _, rfl, (List.append_nil routers).symm ▸ h⟩
    | none =>
      obtain ⟨n', hstore, hadd, h'⟩ := h.addRouter userId latency hat hrouters
      rw [hstore, hadd]
      exact ⟨Attempt.proper_ok (), rfl, h'⟩
  | link source sink bandwidth latency =>
    obtain ⟨n', hstore, hadd, -, h'⟩ := h.addLink ha sink bandwidth latency hlinks
    rw [Storage.extend, acceptedBy, List.append_nil, Topology.add, hstore, hadd]
    exact ⟨Attempt.proper_ok (), rfl, h'⟩
  | linkPair a b bandwidth latency =>
    obtain ⟨pair, n', hstore, hadd, h'⟩ := h.addLinkPair ha.1 ha.2 bandwidth latency hlinks
    rw [Storage.extend, acceptedBy, List.append_nil, Topology.add, hstore, hadd]
    exact ⟨Attempt.proper_ok (), rfl, h'⟩

/-- There are words left for an addition if there are few records afterwards. -/
theorem Records.numbered (h : n.Records routers links) {a : Addition α}
    (hr : routers.length < UInt32.size) (hl : links.length + a.links.length < UInt32.size) :
    a.Numbered n.topology := by
  rw [h.length_routers] at hr
  rw [h.length_links] at hl
  refine ⟨?_, hl.le⟩
  cases a <;> simp only [Addition.routers, List.length_cons, List.length_nil] <;> omega

/-- **Additions in a row** are recorded one after the other. -/
theorem Records.extendAll {additions : List (Addition α)} (h : n.Records routers links)
    (hs : n.Sourced additions)
    (hr : (routers ++ n.accepted additions).length < UInt32.size)
    (hl : (links ++ additions.flatMap Addition.links).length < UInt32.size) :
    (n.extendAll additions).Records (routers ++ n.accepted additions)
      (links ++ additions.flatMap Addition.links) := by
  induction additions generalizing n routers links with
  | nil => simpa [Storage.extendAll, accepted] using h
  | cons a additions ih =>
    have hids : a.Numbered n.topology := h.numbered
      (by rw [List.length_append] at hr; omega)
      (by rw [List.flatMap_cons, List.length_append, List.length_append] at hl; omega)
    rw [accepted, ← List.append_assoc] at hr ⊢
    rw [List.flatMap_cons, ← List.append_assoc] at hl ⊢
    exact ih (h.extend hs.1 hids).2.2 hs.2 hr hl

/-- **The storage is exact** after any additions, of which some may have failed, as long as all
numbers are words.

* No addition ends with a fault, and each one does to the stored topology what it does to
  topologies. The routers are those that were accepted, in order, and the links are those that were
  added, in order.
* The links that leave a router are listed in ascending order.
* The look-up by tile is the inverse of the tiles of the routers, so no two routers share a tile.
* The look-up by user number finds the last router that was accepted with that number.
* The look-up by source and sink finds the lowest link between them, if there is one.
* The next router is refused on a tile that has one, and only there. That changes nothing. -/
theorem lookups_exact (additions : List (Addition α)) (h : (empty : Storage α).Sourced additions)
    (hrouters : ((empty : Storage α).accepted additions).length < UInt32.size)
    (hlinks : (additions.flatMap Addition.links).length < UInt32.size) :
    let n := (empty : Storage α).extendAll additions
    let accepted := (empty : Storage α).accepted additions
    let t := n.topology
    ((∀ before a after, additions = before ++ a :: after →
        let m := (empty : Storage α).extendAll before
        (m.extend a).result.Proper ∧
          m.topology.add a = (m.extend a).result.map fun _ ↦ (m.extend a).state.topology) ∧
      accepted = (Id.range t.routers.size).zip t.routers.toList ∧
      t.links.toList = additions.flatMap Addition.links) ∧
    (∀ r : RouterId, r.index < t.routers.size →
      ∃ ls, t.outgoing r = .ok ls ∧ (ls.Pairwise fun l l' ↦ l.index < l'.index) ∧
        ∀ l, l ∈ ls ↔ ∃ link, t.link l = .ok link ∧ link.source = r) ∧
    ((∀ tile r, n.routerAt? tile = some r ↔ ∃ router, t.router r = .ok router ∧
        router.tile = tile) ∧
      ∀ r r' router router', t.router r = .ok router → t.router r' = .ok router' →
        router.tile = router'.tile → r = r') ∧
    (∀ userId, n.routerWithUserId? userId =
      (accepted.reverse.find? fun e ↦ e.2.userId = userId).map Prod.fst) ∧
    (∀ source sink : RouterId, source.index < t.routers.size →
      ∃ found, t.linkBetween? source sink = .ok found ∧
        (∀ l, found = some l ↔ t.Joins source sink l ∧
          ∀ l', t.Joins source sink l' → l.index ≤ l'.index) ∧
        (found = none ↔ ∀ l, ¬ t.Joins source sink l)) ∧
    ∀ userId tile latency,
      ((∃ e, (n.addRouter userId tile latency).result = Attempt.fail e) ↔
        ∃ r, n.routerAt? tile = some r) ∧
      ∀ e, (n.addRouter userId tile latency).result = Attempt.fail e →
        e = .occupiedTile tile ∧ (n.addRouter userId tile latency).state = n := by
  intro n accepted t
  have hrecords : n.Records accepted (additions.flatMap Addition.links) :=
    records_empty.extendAll h hrouters hlinks
  have hw : t.WellFormed := hrecords.built.wellFormed
  have hat : ∀ tile r, n.routerAt? tile = some r ↔ ∃ router, t.router r = .ok router ∧
      router.tile = tile := fun tile r ↦ by
    rw [hrecords.routerAt?_eq]
    exact hrecords.built.routerAt?_eq_some_iff
  refine ⟨⟨?_, ?_, hrecords.links_eq.symm⟩, fun r hr ↦ hw.exists_outgoing hr, ⟨hat, ?_⟩,
    hrecords.routerWithUserId?_eq, fun r sink hr ↦ hw.exists_linkBetween? hr sink, ?_⟩
  · rintro before a after rfl m
    obtain ⟨hbefore, ha, -⟩ := sourced_append.1 h
    rw [accepted_append, List.length_append] at hrouters
    rw [List.flatMap_append, List.flatMap_cons, List.length_append, List.length_append] at hlinks
    -- what is recorded before the addition is part of what is recorded in the end
    have hm : m.Records _ _ := records_empty.extendAll hbefore
      (by rw [List.nil_append]; omega) (by rw [List.nil_append]; omega)
    obtain ⟨hproper, hadd, -⟩ := hm.extend ha (hm.numbered
      (by rw [List.nil_append]; omega) (by rw [List.nil_append]; omega))
    exact ⟨hproper, hadd⟩
  · exact List.zip_of_prod hrecords.ids_eq hrecords.routers_eq
  · intro r r' router router' hr hr' htile
    have hfound := (hat router'.tile r).2 ⟨router, hr, htile⟩
    rw [(hat router'.tile r').2 ⟨router', hr', rfl⟩] at hfound
    exact (Option.some.inj hfound).symm
  · intro userId tile latency
    cases hfound : n.routerAt? tile with
    | some r =>
      rw [addRouter_of_occupied userId latency hfound]
      refine ⟨iff_of_true ⟨_, rfl⟩ ⟨r, rfl⟩, fun e he ↦ ⟨?_, rfl⟩⟩
      cases he
      rfl
    | none =>
      rw [addRouter_of_free userId latency hfound]
      exact ⟨iff_of_false nofun nofun, nofun⟩

/-- Two routers with one user number between which another one is refused, and then links between
the two routers. -/
def refused : List (Addition Exact) :=
  [.router 5 ⟨0, 0, 0⟩ (.number 1), .router 6 ⟨0, 0, 0⟩ (.number 1),
    .router 5 ⟨1, 0, 0⟩ (.number 1),
    .linkPair ⟨0⟩ ⟨1⟩ (.number 8) (.number 1), .link ⟨0⟩ ⟨1⟩ (.number 8) (.number 1)]

theorem lookups_exact_refused :
    (empty : Storage Exact).Sourced refused ∧
      ((empty : Storage Exact).accepted refused).length < UInt32.size ∧
      (refused.flatMap Addition.links).length < UInt32.size ∧
      let n := (empty : Storage Exact).extendAll refused
      (∃ ls, n.topology.outgoing ⟨0⟩ = .ok ls ∧ (ls.Pairwise fun l l' ↦ l.index < l'.index) ∧
        ∀ l, l ∈ ls ↔ ∃ link, n.topology.link l = .ok link ∧ link.source = ⟨0⟩) ∧
      n.routerWithUserId? 5 = some ⟨1⟩ ∧ n.routerWithUserId? 6 = none ∧
      ∀ r, n.routerAt? ⟨0, 0, 0⟩ = some r ↔ ∃ router, n.topology.router r = .ok router ∧
        router.tile = ⟨0, 0, 0⟩ := by
  have hsourced : (empty : Storage Exact).Sourced refused := by decide +kernel
  have hrouters : ((empty : Storage Exact).accepted refused).length < UInt32.size := by
    decide +kernel
  have hlinks : (refused.flatMap Addition.links).length < UInt32.size := by decide +kernel
  obtain ⟨-, hout, ⟨hat, -⟩, huser, -, -⟩ := lookups_exact refused hsourced hrouters hlinks
  exact ⟨hsourced, hrouters, hlinks, hout ⟨0⟩ (by decide +kernel),
    (huser 5).trans (by decide +kernel), (huser 6).trans (by decide +kernel), hat ⟨0, 0, 0⟩⟩

/-! ### Additions that all succeed -/

/-- **What is added to a topology without a failure** is added to its storage in the same way, if
there are words for all numbers in the end. -/
theorem Records.addAll {additions : List (Addition α)} (h : n.Records routers links)
    {t : Topology α} (hadd : additions.foldlM Topology.add n.topology = .ok t)
    (hr : t.routers.size ≤ UInt32.size) (hl : t.links.size ≤ UInt32.size) :
    ∃ n', addAll additions n = ⟨n', .ok ()⟩ ∧ n'.topology = t ∧
      ∃ routers' links', n'.Records routers' links' := by
  induction additions generalizing n routers links with
  | nil =>
    cases hadd
    exact ⟨n, rfl, rfl, routers, links, h⟩
  | cons a additions ih =>
    rw [List.foldlM_cons] at hadd
    obtain ⟨t₁, hfirst, hrest⟩ := Attempt.bind_eq_ok_iff.1 hadd
    obtain ⟨hbuilt, hsourced, hrouters, hlinks⟩ := h.built.of_add hfirst
    obtain ⟨hr₁, hl₁⟩ := hbuilt.le_of_foldlM_add hrest
    obtain ⟨-, hstep, h'⟩ := h.extend hsourced ⟨by omega, by omega⟩
    rw [hfirst] at hstep
    cases hok : (n.extend a).result with
    | error e =>
      rw [hok] at hstep
      cases hstep
    | ok =>
      rw [hok] at hstep
      obtain rfl : t₁ = _ := Except.ok.inj hstep
      obtain ⟨n', hall, htopology, hrecords⟩ := ih h' hrest
      refine ⟨n', ?_, htopology, hrecords⟩
      rw [Storage.addAll, Outcome.andThen, hok]
      exact hall

/-! ### Additions beyond all words -/

/-- The links that leave the routers are listed by words. -/
def ListsWords (n : Storage α) : Prop :=
  ∀ ls ∈ n.topology.departures, ∀ l ∈ ls, l.index < UInt32.size

omit [Scalar α] in
theorem ListsWords.addRouter (h : n.ListsWords) (userId : Int32) (tile : Tile) (latency : α) :
    (n.addRouter userId tile latency).state.ListsWords := by
  rw [Storage.addRouter]
  split
  · exact h
  · intro ls hls
    rcases Array.mem_push.1 hls with hold | rfl
    · exact h ls hold
    · exact fun _ hl ↦ absurd hl List.not_mem_nil

/-- However many links there are, the next one is listed by a word. -/
theorem ListsWords.addLink (h : n.ListsWords) (source sink : RouterId) (bandwidth latency : α) :
    (n.addLink source sink bandwidth latency).state.ListsWords := by
  rw [Storage.addLink]
  dsimp only
  split
  · exact h
  next before hbefore =>
    have hmem : before ∈ n.topology.departures :=
      Array.mem_of_getElem? (Attempt.entry_eq_ok_iff.1 hbefore)
    intro ls hls l hl
    rcases Array.mem_or_eq_of_mem_setIfInBounds hls with hold | rfl
    · exact h ls hold l hl
    · rcases List.mem_append.1 hl with hl | hl
      · exact h before hmem l hl
      · rw [List.mem_singleton.1 hl]
        exact Nat.mod_lt _ (by decide)

theorem ListsWords.extend (h : n.ListsWords) (a : Addition α) : (n.extend a).state.ListsWords := by
  cases a with
  | router userId tile latency => exact h.addRouter userId tile latency
  | link source sink bandwidth latency => exact h.addLink source sink bandwidth latency
  | linkPair a b bandwidth latency =>
    have hthere := h.addLink a b bandwidth latency
    refine Outcome.state_andThen ListsWords hthere fun _ ↦ ?_
    exact Outcome.state_andThen ListsWords (hthere.addLink b a bandwidth latency) fun _ ↦
      hthere.addLink b a bandwidth latency

theorem ListsWords.addAll (h : n.ListsWords) (additions : List (Addition α)) :
    (addAll additions n).state.ListsWords := by
  induction additions generalizing n with
  | nil => exact h
  | cons a additions ih => exact Outcome.state_andThen _ (h.extend a) fun _ ↦ ih (h.extend a)

end Storage

namespace MeshSettings

variable {α : Type} [Scalar α] {s : MeshSettings α}

/-- **A mesh is stored** as it is built, if its links are words as well. -/
theorem store_of_build {t : Topology α} (h : s.build = .ok t) (hlinks : s.LinksFit) :
    ∃ n, s.store = .ok n ∧ n.toNetwork = .ofTopology t ∧
      ∀ tile, n.routerAt? tile = t.routerAt? tile := by
  have hfits := fits_of_build h
  have hmesh := isMesh_of_build h
  rw [build, if_pos hfits] at h
  obtain ⟨n, hall, rfl, routers, links, hrecords⟩ := Storage.records_empty.addAll h
    (hmesh.size_routers ▸ hfits.count_le) (hmesh.size_links ▸ hlinks)
  refine ⟨n, ?_, congrArg (Network.mk n.topology) hrecords.usage_eq, hrecords.routerAt?_eq⟩
  rw [store, if_pos hfits, hall]
  rfl

/-- **There is no way around that.** Where there are more links than words, the first link too many
is listed under the number of another link, so what is stored is not what is built. -/
theorem exists_store_iff {t : Topology α} (h : s.build = .ok t) :
    (∃ n, s.store = .ok n ∧ n.topology = t) ↔ s.LinksFit := by
  have hmesh := isMesh_of_build h
  constructor
  · rintro ⟨n, hstore, rfl⟩
    rw [store, if_pos (fits_of_build h)] at hstore
    obtain ⟨_, -, hstored⟩ := Attempt.bind_eq_ok_iff.1 hstore
    cases hstored
    by_contra hmany
    rw [LinksFit, ← hmesh.size_links, not_le] at hmany
    have hw := hmesh.built.wellFormed
    -- the link whose number is the first one that is no word
    set l : LinkId := ⟨UInt32.size⟩
    obtain ⟨ls, hls, -, hmem⟩ := hw.exists_outgoing
      (hw.source_lt _ (Array.getElem_mem hmany))
    have hl : l ∈ ls := (hmem l).2
      ⟨_, Attempt.entry_eq_ok_iff.2 (Array.getElem?_eq_getElem hmany), rfl⟩
    have hwords : Storage.ListsWords (Storage.addAll s.additions Storage.empty).state :=
      Storage.ListsWords.addAll (fun _ hls ↦ absurd hls (Array.not_mem_empty _)) _
    exact absurd (hwords ls (Array.mem_of_getElem? (Attempt.entry_eq_ok_iff.1 hls)) l hl)
      (Nat.lt_irrefl _)
  · intro hlinks
    obtain ⟨n, hstore, htopology, -⟩ := store_of_build h hlinks
    exact ⟨n, hstore, congrArg Network.topology htopology⟩

end MeshSettings

end NetOnChip
