/-!
# Tiles

A tile is a place on the grid of a die: a column `x`, a row `y` and a layer. Coordinates are
32-bit words. What is calculated from them is calculated exactly, as a natural number, and made a
word again only if it fits into one: nothing wraps around.
-/

namespace NetOnChip

/-- A number as a 32-bit word, if it fits into one. -/
def word? (n : Nat) : Option UInt32 :=
  if n < UInt32.size then some (.ofNat n) else none

theorem word?_eq_some_iff {n : Nat} {w : UInt32} : word? n = some w ↔ w.toNat = n := by
  unfold word?
  split <;> rename_i h
  · rw [Option.some.injEq, ← UInt32.toNat_inj, UInt32.toNat_ofNat_of_lt' h]
    exact eq_comm
  · have := w.toNat_lt_size
    simp only [reduceCtorEq, false_iff]
    omega

theorem word?_eq_none_iff {n : Nat} : word? n = none ↔ UInt32.size ≤ n := by
  simp [word?]

/-- A place for one block or router: a column, a row and a die layer. -/
structure Tile where
  /-- The column. -/
  x : UInt32
  /-- The row. -/
  y : UInt32
  /-- The die layer. -/
  layer : UInt8
  deriving DecidableEq, Repr, Inhabited

namespace Tile

/-- How far apart two coordinates are; at most one of the two differences is not zero. -/
def gap (a b : UInt32) : Nat :=
  (a.toNat - b.toNat) + (b.toNat - a.toNat)

/-- The number of steps along rows and columns between two tiles; layers do not count. -/
def distance (s t : Tile) : Nat :=
  gap s.x t.x + gap s.y t.y

/-- The distance of two tiles as a 32-bit word. Tiles in opposite corners of a large grid have
none. -/
def distance? (s t : Tile) : Option UInt32 :=
  word? (s.distance t)

/-- Tiles are ordered by column, then by row, then by layer. -/
instance : Ord Tile where
  compare s t := (compare s.x t.x).then ((compare s.y t.y).then (compare s.layer t.layer))

/-- The later of two tiles in their order. -/
def later (s t : Tile) : Tile :=
  if compare s t = .gt then s else t

/-- A tile is written `(x, y, Llayer)`. -/
instance : ToString Tile where
  toString t := "(" ++ toString t.x ++ ", " ++ toString t.y ++ ", L" ++ toString t.layer ++ ")"

theorem gap_comm (a b : UInt32) : gap a b = gap b a :=
  Nat.add_comm ..

/-- **The distance is symmetric.** -/
theorem distance_comm (s t : Tile) : s.distance t = t.distance s := by
  unfold distance
  rw [gap_comm s.x, gap_comm s.y]

end Tile

end NetOnChip
