import NetOnChip.Anneal.Run
import NetOnChip.Proofs.Random.Completes

/-!
# More patience

The loops that draw until something is accepted have no bound of their own; the patience of a source
only says when they are given up. So it should not matter how much of it there is, as long as the
loops end.

A computation is *extended* by another one that comes to the same wherever the loops of the first
one end (`Draw.ExtendedBy`, `Journal.ExtendedBy`). Choices from a stream of random words are
extended by those with more patience (`Chance.extendedBy_ofStream`), and then so is all that is
written against them: benchmarks (`Benchmark.generate_extendedBy`), proposals
(`Layout.propose_extendedBy`) and whole runs (`runRouting_extendedBy`, `runPlacement_extendedBy`).
What a run comes to, and what it has to tell, is therefore determined by the stream, and not by the
patience.
-/

namespace NetOnChip

variable {σ α β γ : Type}

/-! ### Random computations -/

namespace Draw

/-- The second computation does what the first one does, unless that is given up. -/
def ExtendedBy (m m' : Draw σ α β) : Prop :=
  ∀ s, Attempt.Ends (m s) → m' s = m s

variable {m m' : Draw σ α β}

theorem ExtendedBy.refl (m : Draw σ α β) : m.ExtendedBy m :=
  fun _ _ ↦ rfl

theorem exhausted_extendedBy (m : Draw σ α β) :
    Draw.ExtendedBy (fun _ ↦ Attempt.crash .drawsExhausted) m :=
  fun _ h ↦ absurd h Attempt.not_ends_exhausted

/-- Computations are extended step by step. -/
theorem ExtendedBy.bind {k k' : β → Draw σ α γ} (h : m.ExtendedBy m')
    (hk : ∀ b, (k b).ExtendedBy (k' b)) : (m >>= k).ExtendedBy (m' >>= k') := by
  intro s hends
  change Attempt.Ends (m s >>= fun r ↦ k r.1 r.2) at hends
  show (m' s >>= fun r ↦ k' r.1 r.2) = (m s >>= fun r ↦ k r.1 r.2)
  rw [h s hends.of_bind]
  cases hm : m s with
  | error e => rfl
  | ok r =>
    rw [hm] at hends
    exact hk r.1 r.2 hends

end Draw

/-! ### Choices -/

/-- A source whose choices extend those of another one, with as much patience or more. -/
structure Chance.ExtendedBy (c c' : Chance σ α) : Prop where
  below : ∀ n, (c.below n).ExtendedBy (c'.below n)
  belowWide : ∀ n, (c.belowWide n).ExtendedBy (c'.belowWide n)
  between : ∀ lo hi, (c.between lo hi).ExtendedBy (c'.between lo hi)
  coin : ∀ probability, (c.coin probability).ExtendedBy (c'.coin probability)
  climb : ∀ change temperature,
    (c.climb change temperature).ExtendedBy (c'.climb change temperature)
  patience : c.patience ≤ c'.patience

namespace Chance

variable {count count' : Nat}

theorem search_of_le {bits bound : Nat} {draw : σ → Nat × σ} (h : count ≤ count') {s : σ}
    {found : Nat × σ} (hfound : search bits bound draw count s = some found) :
    search bits bound draw count' s = some found := by
  induction count generalizing count' s with
  | zero => cases hfound
  | succ count ih =>
    obtain ⟨count', rfl⟩ := Nat.exists_eq_add_of_lt h
    simp only [search] at hfound ⊢
    split at hfound
    · rw [if_pos ‹_›, hfound]
    · rw [if_neg ‹_›]
      exact ih (Nat.le_add_right ..) hfound

theorem searchBetween_of_le {lo hi : Float} (h : count ≤ count') {s : Stream}
    {found : Float × Stream} (hfound : searchBetween lo hi count s = some found) :
    searchBetween lo hi count' s = some found := by
  induction count generalizing count' s with
  | zero => cases hfound
  | succ count ih =>
    obtain ⟨count', rfl⟩ := Nat.exists_eq_add_of_lt h
    simp only [searchBetween] at hfound ⊢
    split at hfound
    · rw [if_pos ‹_›, hfound]
    · rw [if_neg ‹_›]
      exact ih (Nat.le_add_right ..) hfound

theorem sample_extendedBy (h : count ≤ count') (bits bound : Nat) (draw : σ → Nat × σ) :
    (sample count bits bound draw : Draw σ α Nat).ExtendedBy (sample count' bits bound draw) := by
  intro s hends
  rw [sample] at hends ⊢
  rw [sample]
  split
  · rfl
  · rw [if_neg ‹_›] at hends
    cases hfound : search bits bound draw count s with
    | none =>
      rw [hfound] at hends
      exact absurd hends Attempt.not_ends_exhausted
    | some found => rw [search_of_le h hfound]

theorem sampleBetween_extendedBy (h : count ≤ count') (lo hi : Float) :
    (sampleBetween count lo hi).ExtendedBy (sampleBetween count' lo hi) := by
  intro s hends
  rw [sampleBetween] at hends ⊢
  rw [sampleBetween]
  split
  · rw [if_pos ‹_›] at hends
    cases hfound : searchBetween lo hi count s with
    | none =>
      rw [hfound] at hends
      exact absurd hends Attempt.not_ends_exhausted
    | some found => rw [searchBetween_of_le h hfound]
  · rfl

/-- **More patience** makes no difference to choices that are not given up. -/
theorem extendedBy_ofStream (h : count ≤ count') :
    (ofStream count).ExtendedBy (ofStream count') where
  below _ := sample_extendedBy h _ _ _
  belowWide _ := sample_extendedBy h _ _ _
  between := sampleBetween_extendedBy h
  coin _ := .refl _
  climb _ _ := (sampleBetween_extendedBy h _ _).bind fun _ ↦ .refl _
  patience := h

end Chance

/-! ### Benchmarks and proposals -/

section Draws

variable {c c' : Chance σ α} (h : c.ExtendedBy c')

include h

theorem Topology.searchFreeTile_extendedBy (t : Topology α) (width height : UInt32)
    {count count' : Nat} (hcount : count ≤ count') :
    (t.searchFreeTile c width height count).ExtendedBy
      (t.searchFreeTile c' width height count') := by
  induction count generalizing count' with
  | zero => exact Draw.exhausted_extendedBy _
  | succ count ih =>
    obtain ⟨count', rfl⟩ := Nat.exists_eq_add_of_lt hcount
    refine (h.below _).bind fun x ↦ (h.below _).bind fun y ↦ ?_
    dsimp only
    split
    · exact .refl _
    · exact ih (Nat.le_add_right ..)

theorem Topology.randomFreeTile_extendedBy (t : Topology α) (width height : UInt32) :
    (t.randomFreeTile c width height).ExtendedBy (t.randomFreeTile c' width height) := by
  rw [randomFreeTile, randomFreeTile]
  split
  · exact .refl _
  · exact (t.searchFreeTile_extendedBy h width height h.patience).bind fun _ ↦ .refl _

theorem Benchmark.placeLogicBlocks_extendedBy (t : Topology α) (width height : UInt32)
    (blocks : List BlockId) (p : Placement) :
    (placeLogicBlocks c t width height blocks p).ExtendedBy
      (placeLogicBlocks c' t width height blocks p) := by
  induction blocks generalizing p with
  | nil => exact .refl _
  | cons b blocks ih =>
    refine (t.randomFreeTile_extendedBy h width height).bind fun found ↦ ?_
    match found with
    | none => exact .refl _
    | some tile => exact (ih (p.set b tile)).bind fun _ ↦ .refl _

theorem Benchmark.otherThan_extendedBy (blocks source : Nat) {count count' : Nat}
    (hcount : count ≤ count') :
    (otherThan c blocks source count).ExtendedBy (otherThan c' blocks source count') := by
  induction count generalizing count' with
  | zero => exact Draw.exhausted_extendedBy _
  | succ count ih =>
    obtain ⟨count', rfl⟩ := Nat.exists_eq_add_of_lt hcount
    refine (h.belowWide _).bind fun sink ↦ ?_
    split
    · exact ih (Nat.le_add_right ..)
    · exact .refl _

variable [Scalar α]

namespace Benchmark

theorem randomFlow_extendedBy (s : TrafficSettings α) (blocks : Nat) (name : String) :
    (randomFlow c s blocks name).ExtendedBy (randomFlow c' s blocks name) := by
  refine (h.belowWide _).bind fun source ↦
    (otherThan_extendedBy h blocks source h.patience).bind fun sink ↦ ?_
  have hrest : ∀ bandwidth : α, Draw.ExtendedBy
      (do
        let isLimited ← c.coin (Scalar.clamp 0 1 s.constrainedFraction)
        let maxLatency := if isLimited then s.maxLatency else Scalar.infinity
        let priority := (priorities : List α)[← c.belowWide 4]?.getD 1
        return (⟨name, ⟨source⟩, ⟨sink⟩, bandwidth, maxLatency, priority⟩ : Flow α))
      (do
        let isLimited ← c'.coin (Scalar.clamp 0 1 s.constrainedFraction)
        let maxLatency := if isLimited then s.maxLatency else Scalar.infinity
        let priority := (priorities : List α)[← c'.belowWide 4]?.getD 1
        return (⟨name, ⟨source⟩, ⟨sink⟩, bandwidth, maxLatency, priority⟩ : Flow α)) :=
    fun _ ↦ (h.coin _).bind fun _ ↦ (h.belowWide 4).bind fun _ ↦ .refl _
  by_cases hlt : s.minBandwidth < s.maxBandwidth
  · rw [if_pos hlt, if_pos hlt]
    exact (h.between _ _).bind hrest
  · rw [if_neg hlt, if_neg hlt]
    exact (Draw.ExtendedBy.refl _).bind hrest

theorem addFlows_extendedBy (s : TrafficSettings α) (blocks count i : Nat) (t : Traffic α) :
    (addFlows c s blocks count i t).ExtendedBy (addFlows c' s blocks count i t) := by
  induction count generalizing i t with
  | zero => exact .refl _
  | succ count ih => exact (randomFlow_extendedBy h s blocks _).bind fun flow ↦ ih (i + 1) _

/-- **A benchmark that is generated** is generated with more patience as well. -/
theorem generate_extendedBy (mesh : MeshSettings α) (s : TrafficSettings α) :
    (generate c mesh s).ExtendedBy (generate c' mesh s) := by
  refine (Draw.ExtendedBy.refl _).bind fun t ↦ (Draw.ExtendedBy.refl _).bind fun width ↦
    (Draw.ExtendedBy.refl _).bind fun height ↦ (Draw.ExtendedBy.refl _).bind fun p ↦ ?_
  exact (placeLogicBlocks_extendedBy h t width height _ _).bind fun _ ↦
    (addFlows_extendedBy h s _ _ 0 _).bind fun _ ↦ .refl _

end Benchmark

/-- **A move that is proposed** is proposed with more patience as well. -/
theorem Layout.propose_extendedBy (l : Layout) (fraction : α) (t : Topology α) (p : Placement) :
    (l.propose c fraction t p).ExtendedBy (l.propose c' fraction t p) := by
  have hkind : (l.choosesSwap c fraction).ExtendedBy (l.choosesSwap c' fraction) := by
    rw [choosesSwap, choosesSwap]
    split
    · exact .refl _
    · split
      · exact .refl _
      · exact h.coin _
  have hswap : (l.proposeSwap c p).ExtendedBy (l.proposeSwap c' p) :=
    (h.belowWide _).bind fun _ ↦ (h.belowWide _).bind fun _ ↦ .refl _
  have hrelocation : (l.proposeRelocation c t p).ExtendedBy (l.proposeRelocation c' t p) := by
    rw [proposeRelocation, proposeRelocation]
    split
    · exact .refl _
    · refine (h.below _).bind fun i ↦ ?_
      split
      · exact .refl _
      · refine (t.randomFreeTile_extendedBy h l.width l.height).bind fun found ↦ ?_
        exact .refl _
  refine hkind.bind fun wanted ↦ ?_
  split
  · exact hswap.bind fun _ ↦ .refl _
  · exact hrelocation

end Draws

/-! ### Computations with a journal -/

namespace Journal

/-- The second computation does what the first one does, and tells the same, unless the first one is
given up. -/
def ExtendedBy (m m' : Journal α β) : Prop :=
  ∀ events, Attempt.Ends (m events).1 → m' events = m events

theorem ExtendedBy.refl (m : Journal α β) : ExtendedBy m m :=
  fun _ _ ↦ rfl

theorem ofAttempt_extendedBy {x y : Attempt α β} (h : x.Ends → y = x) :
    ExtendedBy (ofAttempt x) (ofAttempt y) :=
  fun events hends ↦ congrArg (·, events) (h hends)

theorem ExtendedBy.bind {m m' : Journal α β} {k k' : β → Journal α γ} (h : ExtendedBy m m')
    (hk : ∀ b, ExtendedBy (k b) (k' b)) : ExtendedBy (m >>= k) (m' >>= k') := by
  intro events hends
  change Attempt.Ends (ExceptT.bindCont k (m events).1 (m events).2).1 at hends
  show ExceptT.bindCont k' (m' events).1 (m' events).2 =
    ExceptT.bindCont k (m events).1 (m events).2
  cases hm : (m events).1 with
  | ok b =>
    rw [hm] at hends
    rw [h events (hm ▸ Attempt.ends_ok b), hm]
    exact hk b _ hends
  | error e =>
    rw [hm] at hends
    have hfirst : Attempt.Ends (m events).1 :=
      hm ▸ Attempt.ends_error_iff.2 (Attempt.ends_error_iff.1 hends)
    rw [h events hfirst, hm]
    rfl

end Journal

section Runs

open Journal

variable [Scalar α] {c c' : Chance σ α} (h : c.ExtendedBy c') (s : Settings α) (l : Layout)

include h

theorem Setup.make_extendedBy (source : σ) :
    ExtendedBy (Setup.make c source s) (Setup.make c' source s) :=
  (ofAttempt_extendedBy (Benchmark.generate_extendedBy h s.mesh s.traffic source)).bind
    fun _ ↦ .refl _

namespace Annealer

variable (a : Annealer σ α)

theorem decide_extendedBy (change : α) : (a.decide c change).ExtendedBy (a.decide c' change) := by
  rw [decide, decide]
  split
  · exact .refl _
  · exact h.climb change a.temperature

theorem attempt_extendedBy (m : Move) : ExtendedBy (a.attempt c m) (a.attempt c' m) := by
  refine (ExtendedBy.refl _).bind fun d ↦ ?_
  have hrest := (ofAttempt_extendedBy
    (a.decide_extendedBy h ((a.placer.tryMove m).state.costChange d) a.source)).bind
    fun drawn ↦ .refl (ofAttempt (({ a with source := drawn.2 } : Annealer σ α).conclude
      (a.placer.tryMove m).state m d drawn.1))
  dsimp only
  split
  · exact (ExtendedBy.refl _).bind fun _ ↦ hrest
  · exact hrest

theorem step_extendedBy (moves : Nat) : ExtendedBy (a.step s l c moves) (a.step s l c' moves) := by
  refine (ofAttempt_extendedBy (l.propose_extendedBy h _ _ _ a.source)).bind
    fun (proposal, source) ↦ ?_
  match proposal with
  | none => exact .refl _
  | some m => exact (attempt_extendedBy h { a with source } m).bind fun _ ↦ .refl _

theorem iterate_extendedBy (count moves : Nat) :
    ExtendedBy (iterate s l c count moves a) (iterate s l c' count moves a) := by
  induction count generalizing moves a with
  | zero => exact .refl _
  | succ count ih =>
    rw [iterate, iterate]
    refine (a.step_extendedBy h s l moves).bind fun next ↦ ?_
    match next with
    | none => exact .refl _
    | some b => exact ih b (moves + 1)

end Annealer

/-- **A run that routes** does the same with more patience. -/
theorem runRouting_extendedBy (source : σ) (site : Option ReportSite) :
    ExtendedBy (runRouting c source s site) (runRouting c' source s site) :=
  (Setup.make_extendedBy h s source).bind fun _ ↦ .refl _

/-- **A run that anneals** does the same with more patience. -/
theorem runPlacement_extendedBy (source : σ) (site : Option ReportSite) :
    ExtendedBy (runPlacement c source s site) (runPlacement c' source s site) := by
  refine (Setup.make_extendedBy h s source).bind fun ⟨placer, layout⟩ ↦ ?_
  refine (ExtendedBy.refl _).bind fun _ ↦ (ExtendedBy.refl _).bind fun _ ↦ ?_
  exact (Annealer.iterate_extendedBy h s layout _ _ _).bind fun _ ↦ .refl _

end Runs

end NetOnChip
