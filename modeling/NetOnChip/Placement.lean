import NetOnChip.Failure

/-!
# Placements

A placement says on which tile every block is, if it is placed at all. A *move* is a list of
relocations; it can be applied and it can be undone, which takes the relocations back in reverse.
-/

namespace NetOnChip

/-- For every block the tile that it is on. -/
structure Placement where
  /-- The tiles, by block; a block without one is not placed. -/
  tiles : Array (Option Tile)
  deriving DecidableEq, Repr

/-- A block that goes from one tile to another. -/
structure Relocation where
  /-- The block. -/
  block : BlockId
  /-- The tile that it leaves. -/
  old : Tile
  /-- The tile that it goes to. -/
  new : Tile
  deriving DecidableEq, Repr

/-- The blocks that change their tiles together. -/
abbrev Move := List Relocation

namespace Placement

variable {α : Type} (p : Placement)

/-- A placement of some blocks, none of which is placed yet. -/
def empty (blocks : Nat) : Placement :=
  ⟨Array.replicate blocks none⟩

/-- A placement of some blocks, none of which is placed yet, unless they are too many. -/
def ofSize (blocks : Nat) : Attempt α Placement :=
  if blocks < tableLimit then .ok (.empty blocks) else Attempt.crash .tableTooLarge

/-- The number of blocks in the table. -/
def size : Nat :=
  p.tiles.size

/-- The tile of a block. -/
def tile? (b : BlockId) : Option Tile :=
  p.tiles[b.index]?.join

/-- The tile of a block, which has to be placed. -/
def locate (b : BlockId) : Attempt α Tile :=
  match p.tile? b with
  | some tile => .ok tile
  | none => Attempt.fail (.unplacedBlock b)

/-- Puts a block on a tile. The table grows as far as it has to. -/
def set (b : BlockId) (tile : Tile) : Placement :=
  let tiles := p.tiles ++ Array.replicate (b.index + 1 - p.tiles.size) none
  ⟨tiles.setIfInBounds b.index (some tile)⟩

/-- The move that exchanges the tiles of two blocks. -/
def swap (a b : BlockId) : Attempt α Move := do
  let tileA ← p.locate a
  let tileB ← p.locate b
  return [⟨a, tileA, tileB⟩, ⟨b, tileB, tileA⟩]

/-- The move that takes one block to a tile. -/
def relocate (b : BlockId) (tile : Tile) : Attempt α Move := do
  let old ← p.locate b
  return [⟨b, old, tile⟩]

/-- Puts the blocks of a move on their new tiles, one after the other. -/
def apply (m : Move) : Placement :=
  m.foldl (fun p r ↦ p.set r.block r.new) p

/-- Puts the blocks of a move back on their old tiles, the last one first. -/
def undo (m : Move) : Placement :=
  m.foldr (fun r p ↦ p.set r.block r.old) p

end Placement

end NetOnChip
