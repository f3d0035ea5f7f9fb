import NetOnChip.Anneal.Proposal
import NetOnChip.Proofs.Placement
import NetOnChip.Proofs.Random.Promises

/-!
# What is drawn for a proposal

A proposal is drawn without a look at the placement: first it is chosen which blocks to move, and
where to (`Choice`), and only then it is looked up where these blocks are (`Layout.propose_eq`). So
a proposed move leaves from where its blocks are, and whatever is promised of the tiles that are
found is true of the tiles that logic blocks are taken to (`Layout.propose_promises_of`). Which
other blocks are on such a tile plays no part.
-/

namespace NetOnChip

/-- The blocks to move and where to, without where they come from. -/
inductive Choice where
  /-- There is nothing to move. -/
  | nothing
  /-- Two router blocks are exchanged. -/
  | swap (a b : BlockId)
  /-- A logic block is taken to a tile. -/
  | relocate (b : BlockId) (tile : Tile)

namespace Choice

variable {α : Type}

/-- The move from where the blocks are. -/
def move (p : Placement) : Choice → Attempt α (Option Move)
  | nothing => return none
  | swap a b => return some (← p.swap a b)
  | relocate b tile => return some (← p.relocate b tile)

/-- A choice that a layout allows, if logic blocks are only taken to some of the tiles. -/
def Fits (l : Layout) (R : Tile → Prop) : Choice → Prop
  | nothing => True
  | swap a b => a ∈ l.routerBlocks ∧ b ∈ l.routerBlocks
  | relocate b tile => b ∈ l.logicBlocks ∧ R tile

end Choice

namespace Layout

variable {σ α : Type} (l : Layout) (chance : Chance σ α)

/-! ### Choosing first -/

/-- Two different positions in a list of router blocks. -/
def chooseSwap : Draw σ α Choice := do
  let count := l.routerBlocks.length
  let i ← chance.belowWide count
  let step ← chance.belowWide (count - 1)
  let j := (i + (1 + step)) % count
  match l.routerBlocks[i]?, l.routerBlocks[j]? with
  | some a, some b => return .swap a b
  | _, _ => fun _ ↦ Attempt.crash .emptyRange

/-- A logic block and a tile without a router, if there are both. -/
def chooseRelocation [Scalar α] (t : Topology α) : Draw σ α Choice := do
  if l.logicBlocks.isEmpty then
    return .nothing
  else
    match l.logicBlocks[← chance.below l.logicBlocks.length]? with
    | none => return .nothing
    | some b =>
      match ← t.randomFreeTile chance l.width l.height with
      | none => return .nothing
      | some tile => return .relocate b tile

/-- What is moved, if there is anything to move. -/
def choose [Scalar α] (fraction : α) (t : Topology α) : Draw σ α Choice := do
  if ← l.choosesSwap chance fraction then
    l.chooseSwap chance
  else
    l.chooseRelocation chance t

variable {l chance}

theorem proposeSwap_eq (p : Placement) :
    (l.proposeSwap chance p >>= fun m ↦ pure (some m)) =
      l.chooseSwap chance >>= fun choice ↦ liftM (choice.move p : Attempt α (Option Move)) := by
  simp only [proposeSwap, chooseSwap, bind_assoc]
  refine congrArg _ (funext fun i ↦ congrArg _ (funext fun step ↦ ?_))
  cases l.routerBlocks[i]? with
  | none => rfl
  | some a =>
    cases l.routerBlocks[(i + (1 + step)) % l.routerBlocks.length]? with
    | none => rfl
    | some b => simp [Choice.move]

theorem proposeRelocation_eq [Scalar α] (t : Topology α) (p : Placement) :
    l.proposeRelocation chance t p =
      l.chooseRelocation chance t >>= fun choice ↦
        liftM (choice.move p : Attempt α (Option Move)) := by
  rw [proposeRelocation, chooseRelocation]
  split
  · rfl
  · simp only [bind_assoc]
    refine congrArg _ (funext fun i ↦ ?_)
    cases l.logicBlocks[i]? with
    | none => rfl
    | some b =>
      simp only [bind_assoc]
      refine congrArg _ (funext fun found ↦ ?_)
      cases found with
      | none => rfl
      | some tile => simp [Choice.move]

/-- **A proposal is chosen without a look at the placement.** -/
theorem propose_eq [Scalar α] (fraction : α) (t : Topology α) (p : Placement) :
    l.propose chance fraction t p =
      l.choose chance fraction t >>= fun choice ↦
        liftM (choice.move p : Attempt α (Option Move)) := by
  rw [propose, choose, bind_assoc]
  refine congrArg _ (funext fun swaps ↦ ?_)
  cases swaps with
  | true => exact proposeSwap_eq p
  | false => exact proposeRelocation_eq t p

/-! ### What is chosen -/

variable {R : Tile → Prop} {t : Topology α}

theorem chooseSwap_promises : Draw.Promises (Choice.Fits l R) (l.chooseSwap chance) := by
  refine Draw.promises_bind fun i ↦ Draw.promises_bind fun step ↦ ?_
  dsimp only
  split
  · rename_i a b ha hb
    exact Draw.promises_pure ⟨List.mem_of_getElem? ha, List.mem_of_getElem? hb⟩
  · rintro _ _ _ ⟨⟩

theorem chooseRelocation_promises [Scalar α]
    (hfound : Draw.Promises (fun found ↦ ∀ tile ∈ found, R tile)
      (t.randomFreeTile chance l.width l.height)) :
    Draw.Promises (Choice.Fits l R) (l.chooseRelocation chance t) := by
  rw [chooseRelocation]
  split
  · exact Draw.promises_pure trivial
  · refine Draw.promises_bind fun i ↦ ?_
    split
    · exact Draw.promises_pure trivial
    · rename_i b hb
      refine hfound.bind fun found hR ↦ ?_
      cases found with
      | none => exact Draw.promises_pure trivial
      | some tile => exact Draw.promises_pure ⟨List.mem_of_getElem? hb, hR tile rfl⟩

/-- **The blocks that are chosen are listed**, and a tile that is chosen was found. -/
theorem choose_promises [Scalar α] (fraction : α)
    (hfound : Draw.Promises (fun found ↦ ∀ tile ∈ found, R tile)
      (t.randomFreeTile chance l.width l.height)) :
    Draw.Promises (Choice.Fits l R) (l.choose chance fraction t) := by
  refine Draw.promises_bind fun swaps ↦ ?_
  cases swaps with
  | true => exact chooseSwap_promises
  | false => exact chooseRelocation_promises hfound

/-! ### What is proposed -/

/-- The moves that a layout allows from a placement, if logic blocks are only taken to some of the
tiles. -/
inductive Proposes (l : Layout) (R : Tile → Prop) (p : Placement) : Move → Prop where
  /-- Two router blocks are exchanged. -/
  | swap {a b : BlockId} {tileA tileB : Tile} : a ∈ l.routerBlocks → b ∈ l.routerBlocks →
      p.tile? a = some tileA → p.tile? b = some tileB →
        Proposes l R p [⟨a, tileA, tileB⟩, ⟨b, tileB, tileA⟩]
  /-- A logic block is taken to a tile. -/
  | relocate {b : BlockId} {old tile : Tile} : b ∈ l.logicBlocks → p.tile? b = some old → R tile →
      Proposes l R p [⟨b, old, tile⟩]

/-- A proposed move leaves from where the blocks are. -/
theorem Proposes.admits {p : Placement} {m : Move} (h : l.Proposes R p m) : p.Admits m := by
  refine Placement.admits_of_forall ?_
  cases h with
  | swap _ _ hA hB => exact List.forall_mem_cons.2 ⟨hA, List.forall_mem_singleton.2 hB⟩
  | relocate _ hold _ => exact List.forall_mem_singleton.2 hold

/-- A choice that fits makes a move that is allowed. -/
theorem proposes_of_move {p : Placement} {choice : Choice} (hfits : choice.Fits l R)
    {proposal : Option Move} (h : (choice.move p : Attempt α (Option Move)) = .ok proposal) :
    ∀ m ∈ proposal, l.Proposes R p m := by
  rintro m rfl
  cases choice with
  | nothing => cases h
  | swap a b =>
    obtain ⟨_, hswap, h⟩ := Attempt.bind_eq_ok_iff.1 h
    cases h
    obtain ⟨tileA, tileB, hA, hB, rfl⟩ := Placement.of_swap_eq_ok hswap
    exact .swap hfits.1 hfits.2 hA hB
  | relocate b tile =>
    obtain ⟨_, hrelocate, h⟩ := Attempt.bind_eq_ok_iff.1 h
    cases h
    obtain ⟨old, hold, rfl⟩ := Placement.of_relocate_eq_ok hrelocate
    exact .relocate hfits.1 hold hfits.2

/-- **What is proposed is allowed**, whatever is promised of the tiles that are found. -/
theorem propose_promises_of [Scalar α] (fraction : α) (p : Placement)
    (hfound : Draw.Promises (fun found ↦ ∀ tile ∈ found, R tile)
      (t.randomFreeTile chance l.width l.height)) :
    Draw.Promises (fun proposal ↦ ∀ m ∈ proposal, l.Proposes R p m)
      (l.propose chance fraction t p) := by
  rw [propose_eq]
  exact (choose_promises fraction hfound).bind fun _ hfits ↦
    Draw.promises_lift fun _ ↦ proposes_of_move hfits

end Layout

end NetOnChip
