import Mathlib.Logic.Equiv.Basic
import NetOnChip.Placement

/-!
# Applying and undoing moves

A placement *admits* a move when every block of the move is first taken from the tile that it is on
(`Placement.Admits`). Later relocations of the same block do not matter, so this covers moves whose
relocations follow one another (`Chained.admits`) as well as moves all of whose relocations leave
from the placement before the move (`admits_of_forall`).

Undoing an admitted move gives back the placement as it was, the length of its table included
(`undo_apply_of_admits`). A placement admits the moves that it proposes itself, which exchange the
tiles of two blocks or take one block to a tile. An exchange puts the tiles of the table in another
order and nothing else (`moves_exact`).
-/

namespace NetOnChip

namespace Placement

variable {p q : Placement} {m : Move} {b c : BlockId}

/-! ### Setting tiles -/

theorem size_set (p : Placement) (b : BlockId) (tile : Tile) :
    (p.set b tile).size = max p.size (b.index + 1) := by
  simp only [set, size, Array.size_setIfInBounds, Array.size_append, Array.size_replicate]
  omega

/-- The table does not grow if it has room for the block. -/
theorem size_set_of_lt {tile : Tile} (h : b.index < p.size) : (p.set b tile).size = p.size := by
  rw [size_set]
  omega

/-- A table that is not too large has room for just its blocks. -/
theorem size_of_ofSize {α : Type} {blocks : Nat}
    (h : (ofSize blocks : Attempt α Placement) = .ok p) : p.size = blocks := by
  unfold ofSize at h
  split at h
  · cases h
    exact Array.size_replicate
  · cases h

theorem tile?_set (p : Placement) (b c : BlockId) (tile : Tile) :
    (p.set b tile).tile? c = if c = b then some tile else p.tile? c := by
  have hgrown : (p.tiles ++ Array.replicate (b.index + 1 - p.tiles.size) none)[c.index]?.join =
      p.tile? c := by
    rw [Array.getElem?_append, tile?]
    split
    · rfl
    · rw [Array.getElem?_replicate, Array.getElem?_eq_none (by omega)]
      split <;> rfl
  rw [tile?, set, Array.getElem?_setIfInBounds]
  rcases eq_or_ne c b with rfl | hne
  · rw [if_pos rfl, if_pos rfl, if_pos (by simp; omega)]
    rfl
  · rw [if_neg fun e ↦ hne (Id.ext e).symm, if_neg hne, hgrown]

theorem lt_size_of_tile? {tile : Tile} (h : p.tile? b = some tile) : b.index < p.size := by
  rw [tile?, Option.join_eq_some_iff] at h
  exact (Array.getElem?_eq_some_iff.1 h).1

/-- Placements with tables of one length that put all blocks on the same tiles are equal. -/
theorem ext_tile? (hsize : p.size = q.size) (htile : ∀ b, p.tile? b = q.tile? b) : p = q := by
  obtain ⟨tiles⟩ := p
  obtain ⟨tiles'⟩ := q
  congr 1
  refine Array.ext hsize fun i hi hi' ↦ ?_
  have h := htile ⟨i⟩
  rwa [tile?, tile?, Array.getElem?_eq_getElem hi, Array.getElem?_eq_getElem hi',
    Option.join_some, Option.join_some] at h

/-! ### Moves that a placement admits -/

/-- Every block of a move is first taken from the tile that it is on. -/
def Admits (p : Placement) (m : Move) : Prop :=
  ∀ {b : BlockId} {r : Relocation}, m.find? (·.block = b) = some r → p.tile? b = some r.old

/-- Every relocation of a move leaves from the tile that the block is on after the relocations
before it. -/
def Chained : Placement → Move → Prop
  | _, [] => True
  | p, r :: m => p.tile? r.block = some r.old ∧ (p.set r.block r.new).Chained m

theorem admits_of_forall (h : ∀ r ∈ m, p.tile? r.block = some r.old) : p.Admits m := by
  intro b r hr
  have hb : r.block = b := by simpa using List.find?_some hr
  exact hb ▸ h r (List.mem_of_find?_eq_some hr)

theorem Chained.admits (h : p.Chained m) : p.Admits m := by
  induction m generalizing p with
  | nil => exact fun hr ↦ nomatch hr
  | cons r m ih =>
    obtain ⟨hfirst, hothers⟩ := h
    intro b s hs
    rw [List.find?_cons] at hs
    by_cases hb : r.block = b
    · simp only [hb, decide_true] at hs
      cases hs
      exact hb ▸ hfirst
    · simp only [hb, decide_false] at hs
      rw [← ih hothers hs, tile?_set, if_neg (Ne.symm hb)]

/-- The blocks of an admitted move are placed. -/
theorem Admits.lt_size (h : p.Admits m) {r : Relocation} (hr : r ∈ m) : r.block.index < p.size := by
  obtain ⟨s, hs⟩ : ∃ s, m.find? (·.block = r.block) = some s :=
    Option.isSome_iff_exists.1 (List.find?_isSome.2 ⟨r, hr, by simp⟩)
  exact lt_size_of_tile? (h hs)

/-! ### Applying and undoing -/

theorem size_apply (h : ∀ r ∈ m, r.block.index < p.size) : (p.apply m).size = p.size := by
  induction m generalizing p with
  | nil => rfl
  | cons r m ih =>
    obtain ⟨hfirst, hothers⟩ := List.forall_mem_cons.1 h
    have hset : (p.set r.block r.new).size = p.size := size_set_of_lt hfirst
    exact (ih (by rwa [hset])).trans hset

theorem size_undo (h : ∀ r ∈ m, r.block.index < p.size) : (p.undo m).size = p.size := by
  induction m with
  | nil => rfl
  | cons r m ih =>
    obtain ⟨hfirst, hothers⟩ := List.forall_mem_cons.1 h
    show ((p.undo m).set r.block r.old).size = p.size
    rw [size_set, ih hothers]
    omega

/-- A move leaves the other blocks where they are. -/
theorem tile?_apply (hb : ∀ r ∈ m, r.block ≠ b) : (p.apply m).tile? b = p.tile? b := by
  induction m generalizing p with
  | nil => rfl
  | cons r m ih =>
    obtain ⟨hfirst, hothers⟩ := List.forall_mem_cons.1 hb
    show ((p.set r.block r.new).apply m).tile? b = p.tile? b
    rw [ih hothers, tile?_set, if_neg hfirst.symm]

/-- Undoing a move puts every block of it on the tile that it first left. -/
theorem tile?_undo (p : Placement) (m : Move) (b : BlockId) :
    (p.undo m).tile? b = ((m.find? (·.block = b)).map (·.old)).or (p.tile? b) := by
  induction m with
  | nil => rfl
  | cons r m ih =>
    show ((p.undo m).set r.block r.old).tile? b = _
    rw [tile?_set, List.find?_cons, ih]
    by_cases h : r.block = b
    · simp [h]
    · simp [h, Ne.symm h]

/-- **Undoing an admitted move** gives back the placement before it. -/
theorem undo_apply_of_admits (h : p.Admits m) : (p.apply m).undo m = p := by
  have hsize : (p.apply m).size = p.size := size_apply fun _ ↦ h.lt_size
  refine ext_tile? ?_ fun b ↦ ?_
  · rw [size_undo fun r hr ↦ hsize.symm ▸ h.lt_size hr, hsize]
  · rw [tile?_undo]
    cases hfind : m.find? (·.block = b) with
    | some r => exact (h hfind).symm
    | none => exact tile?_apply fun r hr ↦ by simpa using List.find?_eq_none.1 hfind r hr

/-! ### Moves that a placement proposes -/

section Proposed

variable {α : Type} {a : BlockId} {tile tileA tileB : Tile}

theorem tile?_of_locate (h : (p.locate b : Attempt α Tile) = .ok tile) :
    p.tile? b = some tile := by
  unfold locate at h
  split at h
  · cases h
    assumption
  · cases h

theorem of_swap_eq_ok (h : (p.swap a b : Attempt α Move) = .ok m) :
    ∃ tileA tileB, p.tile? a = some tileA ∧ p.tile? b = some tileB ∧
      m = [⟨a, tileA, tileB⟩, ⟨b, tileB, tileA⟩] := by
  obtain ⟨tileA, hA, h⟩ := Attempt.bind_eq_ok_iff.1 h
  obtain ⟨tileB, hB, h⟩ := Attempt.bind_eq_ok_iff.1 h
  cases h
  exact ⟨tileA, tileB, tile?_of_locate hA, tile?_of_locate hB, rfl⟩

/-- The second block of an exchange has not moved yet, unless it is the first one again; then it
has been put where it was. -/
theorem chained_of_swap (h : (p.swap a b : Attempt α Move) = .ok m) : p.Chained m := by
  obtain ⟨tileA, tileB, hA, hB, rfl⟩ := of_swap_eq_ok h
  refine ⟨hA, ?_, trivial⟩
  rw [tile?_set]
  split
  · rfl
  · exact hB

theorem of_relocate_eq_ok (h : (p.relocate b tile : Attempt α Move) = .ok m) :
    ∃ old, p.tile? b = some old ∧ m = [⟨b, old, tile⟩] := by
  obtain ⟨old, hold, h⟩ := Attempt.bind_eq_ok_iff.1 h
  cases h
  exact ⟨old, tile?_of_locate hold, rfl⟩

theorem chained_of_relocate (h : (p.relocate b tile : Attempt α Move) = .ok m) : p.Chained m := by
  obtain ⟨old, hold, rfl⟩ := of_relocate_eq_ok h
  exact ⟨hold, trivial⟩

theorem tile?_apply_swap (hA : p.tile? a = some tileA) (hB : p.tile? b = some tileB)
    (c : BlockId) :
    (p.apply [⟨a, tileA, tileB⟩, ⟨b, tileB, tileA⟩]).tile? c = p.tile? (Equiv.swap a b c) := by
  show ((p.set a tileB).set b tileA).tile? c = _
  rw [tile?_set, tile?_set, Equiv.swap_apply_def]
  split_ifs <;> simp_all

/-- An exchange leaves the tiles of the table the same, each as often as before. -/
theorem tiles_apply_swap_perm (hA : p.tile? a = some tileA) (hB : p.tile? b = some tileB) :
    (p.apply [⟨a, tileA, tileB⟩, ⟨b, tileB, tileA⟩]).tiles.Perm p.tiles := by
  have ha : a.index < p.tiles.size := lt_size_of_tile? hA
  have hb : b.index < p.tiles.size := lt_size_of_tile? hB
  -- the table is the one with two entries exchanged
  suffices p.apply [⟨a, tileA, tileB⟩, ⟨b, tileB, tileA⟩] =
      ⟨p.tiles.swap a.index b.index ha hb⟩ by
    rw [this]
    exact Array.swap_perm ha hb
  refine ext_tile? ?_ fun c ↦ ?_
  · rw [size_apply (List.forall_mem_cons.2 ⟨ha, List.forall_mem_singleton.2 hb⟩)]
    exact Array.size_swap.symm
  · rw [tile?_apply_swap hA hB, tile?, tile?, Array.getElem?_swap, Equiv.swap_apply_def]
    split_ifs <;> simp_all [Id.ext_iff]

end Proposed

/-! ### Moves and the table -/

/-- **Moves are exact.** Undoing a move whose relocations follow one another gives back the table as
it was, and the moves that exchange two blocks or take a block to a tile are of this kind. Two
blocks that are exchanged have each other's tile after it, where two names for the same block make
no difference, and no other block moves. The table holds the same tiles as before, each as often. -/
theorem moves_exact {α : Type} (p : Placement) :
    (∀ {m : Move}, p.Chained m → (p.apply m).undo m = p) ∧
      (∀ {b : BlockId} {tile : Tile} {m : Move}, (p.relocate b tile : Attempt α Move) = .ok m →
        p.Chained m) ∧
      ∀ {a b : BlockId} {m : Move}, (p.swap a b : Attempt α Move) = .ok m →
        p.Chained m ∧ (∀ c, (p.apply m).tile? c = p.tile? (Equiv.swap a b c)) ∧
          (p.apply m).tiles.Perm p.tiles := by
  refine ⟨fun h ↦ undo_apply_of_admits h.admits, chained_of_relocate, fun h ↦ ?_⟩
  have hchained := chained_of_swap h
  obtain ⟨tileA, tileB, hA, hB, rfl⟩ := of_swap_eq_ok h
  exact ⟨hchained, tile?_apply_swap hA hB, tiles_apply_swap_perm hA hB⟩

/-- A move may take the same block twice, and a block may be exchanged with itself. -/
theorem moves_exact_pair :
    let p : Placement := ⟨#[some ⟨0, 0, 0⟩, some ⟨5, 5, 0⟩, none]⟩
    let detour : Move := [⟨⟨0⟩, ⟨0, 0, 0⟩, ⟨1, 0, 0⟩⟩, ⟨⟨1⟩, ⟨5, 5, 0⟩, ⟨0, 0, 0⟩⟩,
      ⟨⟨0⟩, ⟨1, 0, 0⟩, ⟨2, 0, 0⟩⟩]
    let exchange : Move := [⟨⟨0⟩, ⟨0, 0, 0⟩, ⟨5, 5, 0⟩⟩, ⟨⟨1⟩, ⟨5, 5, 0⟩, ⟨0, 0, 0⟩⟩]
    let stay : Move := [⟨⟨1⟩, ⟨5, 5, 0⟩, ⟨5, 5, 0⟩⟩, ⟨⟨1⟩, ⟨5, 5, 0⟩, ⟨5, 5, 0⟩⟩]
    (p.apply detour).undo detour = p ∧
      (p.relocate ⟨0⟩ ⟨1, 0, 0⟩ : Attempt Unit Move) = .ok [⟨⟨0⟩, ⟨0, 0, 0⟩, ⟨1, 0, 0⟩⟩] ∧
      p.Chained [⟨⟨0⟩, ⟨0, 0, 0⟩, ⟨1, 0, 0⟩⟩] ∧
      (p.swap ⟨0⟩ ⟨1⟩ : Attempt Unit Move) = .ok exchange ∧
      (p.apply exchange).tile? ⟨0⟩ = p.tile? ⟨1⟩ ∧ (p.apply exchange).tiles.Perm p.tiles ∧
      (p.swap ⟨1⟩ ⟨1⟩ : Attempt Unit Move) = .ok stay ∧ (p.apply stay).undo stay = p := by
  intro p detour exchange stay
  obtain ⟨hundo, hrelocate, hswap⟩ := moves_exact (α := Unit) p
  have hdetour : p.Chained detour := ⟨by decide, by decide, by decide, trivial⟩
  obtain ⟨-, htile, hperm⟩ := hswap (a := ⟨0⟩) (b := ⟨1⟩) (m := exchange) rfl
  obtain ⟨hstay, -⟩ := hswap (a := ⟨1⟩) (b := ⟨1⟩) (m := stay) rfl
  exact ⟨hundo hdetour, rfl, hrelocate (b := ⟨0⟩) rfl, rfl,
    (htile ⟨0⟩).trans (by rw [Equiv.swap_apply_left]), hperm, rfl, hundo hstay⟩

end Placement

end NetOnChip
