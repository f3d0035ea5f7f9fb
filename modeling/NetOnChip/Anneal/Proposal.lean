import NetOnChip.Benchmark

/-!
# Proposing moves

A proposal either swaps two router blocks or takes a logic block to a random tile without a router.
The share of swaps is a setting; without logic blocks all proposals are swaps, and with fewer than
two router blocks none is.
-/

namespace NetOnChip

namespace Layout

variable {σ α : Type} [Scalar α] (l : Layout)

/-- Two different positions in a list of router blocks, exchanged. -/
def proposeSwap (chance : Chance σ α) (p : Placement) : Draw σ α Move := do
  let count := l.routerBlocks.length
  let i ← chance.belowWide count
  let step ← chance.belowWide (count - 1)
  let j := (i + (1 + step)) % count
  match l.routerBlocks[i]?, l.routerBlocks[j]? with
  | some a, some b => liftM (p.swap a b : Attempt α Move)
  | _, _ => fun _ ↦ Attempt.crash .emptyRange

/-- A logic block taken to a tile without a router, if there are both. -/
def proposeRelocation (chance : Chance σ α) (t : Topology α) (p : Placement) :
    Draw σ α (Option Move) := do
  if l.logicBlocks.isEmpty then
    return none
  else
    match l.logicBlocks[← chance.below l.logicBlocks.length]? with
    | none => return none
    | some b =>
      match ← t.randomFreeTile chance l.width l.height with
      | none => return none
      | some tile =>
        let m ← (p.relocate b tile : Attempt α Move)
        return some m

/-- Whether the next proposal is a swap. -/
def choosesSwap (chance : Chance σ α) (fraction : α) : Draw σ α Bool := do
  if l.routerBlocks.length < 2 then
    return false
  else if l.logicBlocks.isEmpty then
    return true
  else
    chance.coin (Scalar.clamp 0 1 fraction)

/-- A random move, if there is anything to move. -/
def propose (chance : Chance σ α) (fraction : α) (t : Topology α) (p : Placement) :
    Draw σ α (Option Move) := do
  if ← l.choosesSwap chance fraction then
    return some (← l.proposeSwap chance p)
  else
    l.proposeRelocation chance t p

end Layout

end NetOnChip
