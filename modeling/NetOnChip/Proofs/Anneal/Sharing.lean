import NetOnChip.Proofs.Anneal.Total
import NetOnChip.Proofs.FreeTiles

/-!
# Blocks that share a tile

A router block is alone on its tile, all along a run: it is on a router, no other router block is on
that router, and logic blocks are only taken to tiles without a router (`Layout.Fills`). Logic
blocks may share a tile. They do so if they were placed on it together at the start, and they come
to do so if a logic block is taken to a tile that another one is on (`Placement.Joins`). A proposal
does not avoid this, because it does not depend on where the other blocks are; and it is the only
way, since an exchange of router blocks leaves the logic blocks where they are
(`Annealer.sharing_exact`).
-/

namespace NetOnChip

namespace Placement

variable {p : Placement} {m : Move} {b c : BlockId}

/-- Two different blocks are on one tile. -/
def Share (p : Placement) (b c : BlockId) : Prop :=
  b ≠ c ∧ ∃ tile, p.tile? b = some tile ∧ p.tile? c = some tile

/-- A move takes the first block, and no other one, to the tile that the second block is on. -/
def Joins (p : Placement) (m : Move) (b c : BlockId) : Prop :=
  b ≠ c ∧ ∃ old tile, m = [⟨b, old, tile⟩] ∧ p.tile? c = some tile

theorem Share.symm (h : p.Share b c) : p.Share c b :=
  ⟨h.1.symm, h.2.imp fun _ ⟨hb, hc⟩ ↦ ⟨hc, hb⟩⟩

/-- **Blocks that are joined share a tile** after the move. -/
theorem Joins.share (h : p.Joins m b c) : (p.apply m).Share b c := by
  obtain ⟨hne, old, tile, rfl, hc⟩ := h
  refine ⟨hne, tile, ?_, ?_⟩
  · show (p.set b tile).tile? b = _
    rw [tile?_set, if_pos rfl]
  · show (p.set b tile).tile? c = _
    rw [tile?_set, if_neg hne.symm, hc]

/-- Taking one block to a tile lets no other blocks share one. -/
theorem share_set {d : BlockId} {old tile : Tile} (h : (p.set d tile).Share b c) :
    p.Share b c ∨ p.Joins [⟨d, old, tile⟩] b c ∨ p.Joins [⟨d, old, tile⟩] c b := by
  obtain ⟨hne, shared, hb, hc⟩ := h
  rw [tile?_set] at hb hc
  by_cases hbd : b = d
  · subst hbd
    rw [if_pos rfl] at hb
    rw [if_neg hne.symm] at hc
    exact .inr (.inl ⟨hne, old, tile, rfl, hc.trans hb.symm⟩)
  · rw [if_neg hbd] at hb
    by_cases hcd : c = d
    · subst hcd
      rw [if_pos rfl] at hc
      exact .inr (.inr ⟨hne.symm, old, tile, rfl, hb.trans hc.symm⟩)
    · rw [if_neg hcd] at hc
      exact .inl ⟨hne, shared, hb, hc⟩

/-- No blocks share a tile in a table that lists no tile twice. -/
theorem not_share_of_nodup (h : p.tiles.toList.Nodup) : ¬ p.Share b c := by
  rintro ⟨hne, tile, hb, hc⟩
  have hlt : b.index < p.tiles.toList.length := by
    rw [Array.length_toList]
    exact lt_size_of_tile? hb
  rw [tile?, Option.join_eq_some_iff, ← Array.getElem?_toList] at hb hc
  exact hne (Id.ext ((List.getElem?_inj hlt h).1 (hb.trans hc.symm)))

end Placement

/-! ### Layouts -/

namespace Layout

variable {α : Type} {l : Layout} {t : Topology α} {p : Placement} {m : Move} {b c : BlockId}

/-- A placement that keeps to a layout and places no other blocks. -/
structure Fills (l : Layout) (t : Topology α) (p : Placement) : Prop extends l.Holds t p where
  /-- Every block is a router block or a logic block. -/
  listed : ∀ b tile, p.tile? b = some tile → b ∈ l.routerBlocks ∨ b ∈ l.logicBlocks

namespace Fills

/-- Router blocks are on routers. -/
theorem not_isFree (h : l.Fills t p) (hb : b ∈ l.routerBlocks) {tile : Tile}
    (htile : p.tile? b = some tile) : ¬ t.IsFree l.width l.height tile := by
  intro hfree
  obtain ⟨r, hr, hbr⟩ := h.exists_router hb
  cases htile.symm.trans hbr
  exact Topology.routerAt?_eq_none_iff.1 hfree.noRouter r hr rfl

/-- Only logic blocks are on free tiles. -/
theorem mem_logicBlocks (h : l.Fills t p) {tile : Tile} (hfree : t.IsFree l.width l.height tile)
    (hb : p.tile? b = some tile) : b ∈ l.logicBlocks :=
  (h.listed b tile hb).resolve_left fun hrouter ↦ h.not_isFree hrouter hb hfree

/-- **Router blocks are alone on their tiles.** -/
theorem not_share (h : l.Fills t p) (ht : t.Built) (hb : b ∈ l.routerBlocks) :
    ¬ p.Share b c := by
  rintro ⟨hne, tile, hbtile, hctile⟩
  rcases h.listed c tile hctile with hc | hc
  · -- two router blocks are on two routers, and these are on two tiles
    have hnodup : (l.routerBlocks.map p.tile?).Nodup := by
      refine h.routers.nodup_iff.2 ?_
      have htiles := ht.nodup_tiles.map (Option.some_injective Tile)
      rwa [List.map_map] at htiles
    exact hne (List.inj_on_of_nodup_map hnodup hb hc (hbtile.trans hctile.symm))
  · obtain ⟨tile', hctile', hfree⟩ := h.logic c hc
    cases hctile.symm.trans hctile'
    exact h.not_isFree hb hbtile hfree

/-- **Only logic blocks share a tile.** -/
theorem logic_of_share (h : l.Fills t p) (ht : t.Built) (hshare : p.Share b c) :
    b ∈ l.logicBlocks ∧ c ∈ l.logicBlocks := by
  have hlogic : ∀ {b c}, p.Share b c → b ∈ l.logicBlocks := by
    intro b c hshare
    have ⟨_, tile, hb, _⟩ := hshare
    exact (h.listed b tile hb).resolve_left fun hrouter ↦ h.not_share ht hrouter hshare
  exact ⟨hlogic hshare, hlogic hshare.symm⟩

end Fills

/-! ### Proposed moves -/

namespace Proposes

/-- **A proposed move** leaves a placement as full as it was. -/
theorem fills (hm : l.Proposes (t.IsFree l.width l.height) p m) (hl : l.Distinct)
    (h : l.Fills t p) : l.Fills t (p.apply m) := by
  refine ⟨(hm.allows hl h.toHolds).2, fun c tile hc ↦ ?_⟩
  cases hm with
  | swap ha hb hA hB =>
    rw [Placement.tile?_apply_swap hA hB, Equiv.swap_apply_def] at hc
    split_ifs at hc with hca hcb
    · exact .inl (hca ▸ ha)
    · exact .inl (hcb ▸ hb)
    · exact h.listed c tile hc
  | @relocate b _ target hb =>
    change (p.set b target).tile? c = some tile at hc
    rw [Placement.tile?_set] at hc
    split_ifs at hc with hcb
    · exact .inr (hcb ▸ hb)
    · exact h.listed c tile hc

/-- **Blocks only come to share a tile if they are joined**, because an exchange of router blocks
leaves all the others where they are. -/
theorem share_cases (hm : l.Proposes (t.IsFree l.width l.height) p m) (hl : l.Distinct)
    (h : l.Fills t p) (ht : t.Built) (hshare : (p.apply m).Share b c) :
    p.Share b c ∨ p.Joins m b c ∨ p.Joins m c b := by
  have hafter := (hm.fills hl h).logic_of_share ht hshare
  cases hm with
  | @swap a d tileA tileB ha hd hA hB =>
    obtain ⟨hne, tile, hb, hc⟩ := hshare
    have hstay : ∀ e ∈ l.logicBlocks, Equiv.swap a d e = e := fun e he ↦
      Equiv.swap_apply_of_ne_of_ne (fun hea ↦ hl.disjoint a ha (hea ▸ he))
        fun hed ↦ hl.disjoint d hd (hed ▸ he)
    rw [Placement.tile?_apply_swap hA hB, hstay _ hafter.1] at hb
    rw [Placement.tile?_apply_swap hA hB, hstay _ hafter.2] at hc
    exact .inl ⟨hne, tile, hb, hc⟩
  | relocate => exact Placement.share_set hshare

/-- **A block that another one is taken to is a logic block**, and so is the one that is taken. -/
theorem logic_of_joins (hm : l.Proposes (t.IsFree l.width l.height) p m) (h : l.Fills t p)
    (hjoins : p.Joins m b c) : b ∈ l.logicBlocks ∧ c ∈ l.logicBlocks := by
  obtain ⟨-, old, tile, rfl, hc⟩ := hjoins
  cases hm with
  | relocate hb _ htile => exact ⟨hb, h.mem_logicBlocks htile hc⟩

end Proposes

end Layout

/-! ### Runs -/

open Journal

section Runs

variable {σ α : Type} [Scalar α] {chance : Chance σ α} {s : Settings α} {l : Layout}
  {t : Topology α} {a a₀ : Annealer σ α} {x : Placer α} {m : Move} {d : Delta α} {wanted : Bool}

/-- **What is proposed** exchanges two router blocks or takes a logic block to a free tile. -/
theorem Layout.propose_free (hc : chance.Indexes) (fraction : α) (t : Topology α)
    (p : Placement) :
    Draw.Promises (fun proposal ↦ ∀ m ∈ proposal, l.Proposes (t.IsFree l.width l.height) p m)
      (l.propose chance fraction t p) :=
  propose_promises_of fraction p
    ((t.randomFreeTile_completes hc l.width l.height).promises.mono fun _ h ↦ h.2)

/-- A placer whose placement fills a layout, and whose tracker is in step with it. -/
structure Placer.Filled (l : Layout) (t : Topology α) (x : Placer α) : Prop where
  /-- The topology stays the same. -/
  topology_eq : x.tracker.topology = t
  /-- The tracker is in step with the placement. -/
  synced : x.tracker.Synced x.placement
  /-- The placement keeps to the layout, and there are no other blocks. -/
  fills : l.Fills t x.placement

/-- A run starts with a placement that fills its layout. -/
theorem Setup.make_filled (hc : chance.Indexes) (s : Settings α) (source : σ) :
    Promises (fun u ↦ u.layout.Distinct ∧ u.placer.tracker.topology.Built ∧
        u.placer.Filled u.layout u.placer.tracker.topology)
      (Setup.make chance source s) := by
  refine (make_starts source (Benchmark.generate_laid hc)).mono fun u ⟨b, hlaid, h⟩ ↦ ?_
  have hfills : u.layout.Fills u.placer.tracker.topology u.placer.placement := by
    rw [h.layout_eq, h.topology_eq, h.placement_eq]
    exact ⟨hlaid.holds, fun c tile hc ↦ hlaid.mem_of_lt (Placement.lt_size_of_tile? hc)⟩
  exact ⟨h.layout_eq ▸ hlaid.distinct, h.isMesh.built, rfl, h.synced, hfills⟩

namespace Annealer

namespace Decided

/-- **A move that is accepted is made**, and any other one leaves the placement as it was. -/
theorem placement_eq (h : Decided s l chance a m d wanted x) :
    x.placement = if wanted then a.placer.placement.apply m else a.placer.placement := by
  cases wanted with
  | true =>
    rw [h.accepted rfl]
    rfl
  | false =>
    rw [(h.rejected rfl).2]
    exact Placement.undo_apply_of_admits h.admits

/-- A decision is about a move that was proposed. -/
theorem proposes (h : Decided s l chance a m d wanted x) (hc : chance.Indexes)
    (ht : a.placer.tracker.topology = t) :
    l.Proposes (t.IsFree l.width l.height) a.placer.placement m := by
  obtain ⟨source, _, hproposed, -⟩ := h.drawn
  subst ht
  exact Layout.propose_free hc _ _ _ _ _ _ hproposed m rfl

/-- **Either decision leaves the layout filled.** -/
theorem filled (h : Decided s l chance a m d wanted x) (hc : chance.Indexes) (hl : l.Distinct)
    (ha : a.placer.Filled l t) : x.Filled l t := by
  have htracker : x.tracker.topology = t ∧ x.tracker.Synced x.placement := by
    cases wanted with
    | true =>
      obtain ⟨y, hy, -, rfl⟩ := h.transaction_of_accepted
      obtain ⟨hsynced, halike⟩ := hy.synced ha.synced
      exact ⟨halike.topology_eq.trans ha.topology_eq, hsynced⟩
    | false =>
      obtain ⟨hsynced, halike⟩ := h.transaction_of_rejected.1.synced ha.synced
      exact ⟨halike.topology_eq.trans ha.topology_eq, hsynced⟩
  refine ⟨htracker.1, htracker.2, ?_⟩
  rw [h.placement_eq]
  split
  · exact (h.proposes hc ha.topology_eq).fills hl ha.fills
  · exact ha.fills

end Decided

/-- One of two blocks was taken to the tile of the other one by a move that was accepted, at a
boundary before some number of iterations. -/
def Joined (s : Settings α) (l : Layout) (chance : Chance σ α) (a₀ : Annealer σ α) (count : Nat)
    (b c : BlockId) : Prop :=
  ∃ j < count, ∃ a m d x, Boundary s l chance a₀ j a ∧ Decided s l chance a m d true x ∧
    (a.placer.placement.Joins m b c ∨ a.placer.placement.Joins m c b)

theorem Joined.mono {b c : BlockId} {j k : Nat} (h : Joined s l chance a₀ j b c) (hjk : j ≤ k) :
    Joined s l chance a₀ k b c :=
  h.imp fun _ ⟨hj, hrest⟩ ↦ ⟨hj.trans_le hjk, hrest⟩

namespace Boundary

variable {count : Nat} (hc : chance.Indexes) (hl : l.Distinct) (h₀ : a₀.placer.Filled l t)

include hc hl h₀

/-- **The layout is filled at every boundary.** -/
theorem filled (h : Boundary s l chance a₀ count a) : a.placer.Filled l t :=
  h.keeps h₀ (fun hdecided ↦ hdecided.filled hc hl) fun hx ↦
    ⟨hx.topology_eq, hx.synced, hx.fills⟩

/-- **Two blocks share a tile** at a boundary only if they did at the start, or if they were joined
in the meantime. -/
theorem share_cases (ht : t.Built) (h : Boundary s l chance a₀ count a) {b c : BlockId}
    (hshare : a.placer.placement.Share b c) :
    a₀.placer.placement.Share b c ∨ Joined s l chance a₀ count b c := by
  induction h with
  | start => exact .inl hshare
  | @step count a a' _ ha hstep ih =>
    have hbefore : a.placer.placement.Share b c →
        a₀.placer.placement.Share b c ∨ Joined s l chance a₀ (count + 1) b c :=
      fun hshare ↦ (ih hshare).imp_right fun hjoined ↦ hjoined.mono (Nat.le_succ count)
    obtain ⟨m, d, wanted, x, hiterates⟩ := step_promises _ _ _ hstep _ rfl
    have hdecided := hiterates.toDecided
    have hplacement : a'.placer.placement = x.placement := by
      rcases hiterates.placer_eq with heq | heq <;> rw [heq]
    rw [hplacement, hdecided.placement_eq] at hshare
    have hfilled := ha.filled hc hl h₀
    cases wanted with
    | false => exact hbefore hshare
    | true =>
      have hm := hdecided.proposes hc hfilled.topology_eq
      rcases hm.share_cases hl hfilled.fills ht hshare with hshare | hjoins
      · exact hbefore hshare
      · exact .inr ⟨count, Nat.lt_succ_self count, a, m, d, x, ha, hdecided, hjoins⟩

end Boundary

/-- **Which blocks share a tile.** Whatever the settings are and whatever is drawn, at every
boundary of a run:

1. only logic blocks share a tile; router blocks are alone on theirs, and there are no other blocks;
2. a proposal exchanges two router blocks or takes a logic block to a tile of the grid, on the
   lowest layer, without a router; if other blocks are on this tile then they are logic blocks, and
   they share it after the move;
3. what is proposed does not depend on where the blocks are: it is first chosen which blocks to move
   and where to, and the placement only says where they come from;
4. two blocks share a tile only if they did at the start, or if one of them was taken to the tile of
   the other one by a move that was accepted in the meantime. -/
theorem sharing_exact (hc : chance.Indexes) (s : Settings α) (source : σ) :
    Promises
      (fun u ↦ ∀ k a, Boundary s u.layout chance (initial s source u) k a →
        let t := a.placer.tracker.topology
        let p := a.placer.placement
        (u.layout.Fills t p ∧
          ∀ b c, p.Share b c → b ∈ u.layout.logicBlocks ∧ c ∈ u.layout.logicBlocks) ∧
        Draw.Promises
          (fun proposal ↦ ∀ m ∈ proposal,
            u.layout.Proposes (t.IsFree u.layout.width u.layout.height) p m ∧
            ∀ b c, p.Joins m b c → b ∈ u.layout.logicBlocks ∧ c ∈ u.layout.logicBlocks ∧
              (p.apply m).Share b c)
          (u.layout.propose chance s.annealing.routerMoveFraction t p) ∧
        (∀ q : Placement, u.layout.propose chance s.annealing.routerMoveFraction t q =
          u.layout.choose chance s.annealing.routerMoveFraction t >>= fun choice ↦
            liftM (choice.move q : Attempt α (Option Move))) ∧
        ∀ b c, p.Share b c → u.placer.placement.Share b c ∨
          Joined s u.layout chance (initial s source u) k b c)
      (Setup.make chance source s) := by
  refine (Setup.make_filled hc s source).mono fun u ⟨hl, ht, h₀⟩ k a ha ↦ ?_
  have hfilled : a.placer.Filled u.layout u.placer.tracker.topology := ha.filled hc hl h₀
  have hbuilt : a.placer.tracker.topology.Built := hfilled.topology_eq ▸ ht
  have hfills : u.layout.Fills a.placer.tracker.topology a.placer.placement :=
    hfilled.topology_eq ▸ hfilled.fills
  refine ⟨⟨hfills, fun b c ↦ hfills.logic_of_share hbuilt⟩, ?_, fun q ↦ Layout.propose_eq ..,
    fun b c ↦ ha.share_cases hc hl h₀ ht⟩
  refine (Layout.propose_free hc _ _ _).mono fun proposal hproposal m hmem ↦
    ⟨hproposal m hmem, fun b c hjoins ↦ ?_⟩
  have hlogic := (hproposal m hmem).logic_of_joins hfills hjoins
  exact ⟨hlogic.1, hlogic.2, hjoins.share⟩

end Annealer

end Runs

/-! ### Random words -/

/-- Two routers with two tiles between them, two logic blocks on these tiles, and no flows. Only
logic blocks are moved. -/
def Settings.crowded : Settings Float where
  routing := .default
  mesh := { MeshSettings.default with width := 2, height := 1, spacing := 3 }
  traffic := { TrafficSettings.default with flowCount := 0, logicBlockCount := 2, seed := 2 }
  annealing := { AnnealingSettings.default with routerMoveFraction := 0.0 }

namespace Annealer

open Settings

/-- The choices that a few rejections in a row do not exhaust. -/
def steady : Chance Stream Float :=
  .ofStream 100

/-- From the words that the seed leads to, the logic blocks are placed on different tiles, and the
first iteration takes one of them to the tile of the other one. -/
theorem step_crowded :
    ∃ u a drawn, (Setup.make steady (.ofSeed crowded.traffic.seed) crowded).run.1 = .ok u ∧
      u.placer.placement =
        ⟨#[some ⟨0, 0, 0⟩, some ⟨3, 0, 0⟩, some ⟨2, 0, 0⟩, some ⟨1, 0, 0⟩]⟩ ∧
      (u.layout.propose steady crowded.annealing.routerMoveFraction
        u.placer.tracker.topology u.placer.placement).run (.ofSeed crowded.traffic.seed) =
          .ok drawn ∧
      drawn.1 = some [⟨⟨2⟩, ⟨2, 0, 0⟩, ⟨1, 0, 0⟩⟩] ∧
      ((initial crowded (.ofSeed crowded.traffic.seed) u).step crowded u.layout steady 0 #[]).1 =
        .ok (some a) ∧
      a.placer.placement =
        ⟨#[some ⟨0, 0, 0⟩, some ⟨3, 0, 0⟩, some ⟨1, 0, 0⟩, some ⟨1, 0, 0⟩]⟩ := by
  have hcheck : ((Setup.make steady (.ofSeed crowded.traffic.seed) crowded).run.1.toOption.bind
      fun u ↦ ((u.layout.propose steady crowded.annealing.routerMoveFraction
        u.placer.tracker.topology u.placer.placement).run
          (.ofSeed crowded.traffic.seed)).toOption.bind fun drawn ↦
      ((initial crowded (.ofSeed crowded.traffic.seed) u).step crowded u.layout steady 0
        #[]).1.toOption.join.map fun a ↦
          (u.placer.placement, drawn.1, a.placer.placement)) =
      some (⟨#[some ⟨0, 0, 0⟩, some ⟨3, 0, 0⟩, some ⟨2, 0, 0⟩, some ⟨1, 0, 0⟩]⟩,
        some [⟨⟨2⟩, ⟨2, 0, 0⟩, ⟨1, 0, 0⟩⟩],
        ⟨#[some ⟨0, 0, 0⟩, some ⟨3, 0, 0⟩, some ⟨1, 0, 0⟩, some ⟨1, 0, 0⟩]⟩) := by decide +kernel
  obtain ⟨u, hu, hcheck⟩ := Option.bind_eq_some_iff.1 hcheck
  obtain ⟨drawn, hdrawn, hcheck⟩ := Option.bind_eq_some_iff.1 hcheck
  obtain ⟨a, ha, hcheck⟩ := Option.map_eq_some_iff.1 hcheck
  obtain ⟨hbefore, hproposal, hafter⟩ : _ ∧ _ ∧ _ := by simpa using hcheck
  exact ⟨u, a, drawn, Attempt.eq_ok_of_toOption hu, hbefore, Attempt.eq_ok_of_toOption hdrawn,
    hproposal, Attempt.eq_ok_of_toOption (Option.join_eq_some_iff.1 ha), hafter⟩

/-- In this run the two logic blocks share a tile after one iteration, because one of them was taken
to the other one. -/
theorem sharing_exact_crowded :
    steady.Indexes ∧ ∃ u a,
      (Setup.make steady (.ofSeed crowded.traffic.seed) crowded).run.1 = .ok u ∧
      Boundary crowded u.layout steady (initial crowded (.ofSeed crowded.traffic.seed) u) 1 a ∧
      a.placer.placement.Share ⟨2⟩ ⟨3⟩ ∧
      (⟨2⟩ : BlockId) ∈ u.layout.logicBlocks ∧ (⟨3⟩ : BlockId) ∈ u.layout.logicBlocks ∧
      Joined crowded u.layout steady (initial crowded (.ofSeed crowded.traffic.seed) u) 1
        ⟨2⟩ ⟨3⟩ := by
  obtain ⟨u, a, _, hu, hbefore, -, -, ha, hafter⟩ := step_crowded
  have hboundary : Boundary crowded u.layout steady
      (initial crowded (.ofSeed crowded.traffic.seed) u) 1 a := .step .start ha
  have hshare : a.placer.placement.Share ⟨2⟩ ⟨3⟩ := by
    rw [hafter]
    exact ⟨by decide, ⟨1, 0, 0⟩, by decide, by decide⟩
  obtain ⟨⟨-, hlogic⟩, -, -, hjoined⟩ :=
    sharing_exact (Chance.indexes_ofStream 100) crowded (.ofSeed crowded.traffic.seed) #[] u hu 1 a
      hboundary
  refine ⟨Chance.indexes_ofStream 100, u, a, hu, hboundary, hshare, (hlogic _ _ hshare).1,
    (hlogic _ _ hshare).2, (hjoined _ _ hshare).resolve_left ?_⟩
  rw [hbefore]
  exact Placement.not_share_of_nodup (by decide)

/-- **A logic block may be taken to a tile that is occupied.** No tile is shared when this run is
set up, and yet the first proposal is to take a logic block to the tile of the other one. The move
is accepted, and then they share it. -/
theorem propose_joins_crowded :
    ∃ u a m source, (Setup.make steady (.ofSeed crowded.traffic.seed) crowded).run.1 = .ok u ∧
      (∀ b c, ¬ u.placer.placement.Share b c) ∧
      (u.layout.propose steady crowded.annealing.routerMoveFraction
        u.placer.tracker.topology u.placer.placement).run (.ofSeed crowded.traffic.seed) =
          .ok (some m, source) ∧
      u.placer.placement.Joins m ⟨2⟩ ⟨3⟩ ∧
      ((initial crowded (.ofSeed crowded.traffic.seed) u).step crowded u.layout steady 0 #[]).1 =
        .ok (some a) ∧
      a.placer.placement.Share ⟨2⟩ ⟨3⟩ := by
  obtain ⟨u, a, ⟨_, source⟩, hu, hbefore, hdrawn, rfl, ha, hafter⟩ := step_crowded
  refine ⟨u, a, _, source, hu, fun b c ↦ ?_, hdrawn, ?_, ha, ?_⟩
  · rw [hbefore]
    exact Placement.not_share_of_nodup (by decide)
  · rw [hbefore]
    exact ⟨by decide, ⟨2, 0, 0⟩, ⟨1, 0, 0⟩, rfl, by decide⟩
  · rw [hafter]
    exact ⟨by decide, ⟨1, 0, 0⟩, by decide, by decide⟩

end Annealer

end NetOnChip
