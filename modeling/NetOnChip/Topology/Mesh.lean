import NetOnChip.Settings
import NetOnChip.Topology

/-!
# Meshes

A mesh has one router in every column and row, and a pair of opposing links between horizontal and
vertical neighbours. Routers are numbered row by row. Columns and rows of routers are `spacing`
tiles apart, or next to each other if the spacing is zero.

The numbers and the coordinates of all routers have to fit into 32-bit words (`MeshSettings.Fits`).
This is checked before the first router is added. There may be about four times as many links as
routers, so their numbers need not fit into words even so (`MeshSettings.LinksFit`).
-/

namespace NetOnChip

namespace Topology

variable {α : Type}

/-- The columns and rows of a mesh, row by row. -/
def positions (width height : Nat) : List (Nat × Nat) :=
  (List.range (width * height)).map fun i ↦ (i % width, i / width)

theorem mem_positions {width height : Nat} {p : Nat × Nat} :
    p ∈ positions width height ↔ p.1 < width ∧ p.2 < height := by
  obtain ⟨x, y⟩ := p
  simp only [positions, List.mem_map, List.mem_range, Prod.mk.injEq]
  constructor
  · rintro ⟨i, hi, rfl, rfl⟩
    have hw : 0 < width := Nat.pos_of_mul_pos_right (Nat.zero_lt_of_lt hi)
    exact ⟨Nat.mod_lt i hw, Nat.div_lt_of_lt_mul hi⟩
  · rintro ⟨hx, hy⟩
    refine ⟨width * y + x, ?_, ?_, ?_⟩
    · calc width * y + x < width * y + width := Nat.add_lt_add_left hx _
        _ = width * (y + 1) := rfl
        _ ≤ width * height := Nat.mul_le_mul_left _ hy
    · rw [Nat.mul_add_mod, Nat.mod_eq_of_lt hx]
    · rw [Nat.mul_add_div (Nat.zero_lt_of_lt hx), Nat.div_eq_of_lt hx, Nat.add_zero]

end Topology

namespace MeshSettings

variable {α : Type} (s : MeshSettings α)

/-- The distance between neighbouring routers in tiles. -/
def pitch : Nat :=
  max s.spacing.toNat 1

/-- How far the last one of some routers in a row or column is from the first one, in tiles. -/
def reach (routers : UInt32) : Nat :=
  (routers.toNat - 1) * s.pitch

/-- The number of the router in a column and row. -/
def number (position : Nat × Nat) : Nat :=
  position.2 * s.width.toNat + position.1

/-- The tile of the router in a column and row. -/
def tile (position : Nat × Nat) : Tile :=
  ⟨.ofNat (position.1 * s.pitch), .ofNat (position.2 * s.pitch), 0⟩

/-- The router in a column and row. -/
def routerId (position : Nat × Nat) : RouterId :=
  ⟨s.number position⟩

/-- The numbers and the coordinates of all routers fit into 32-bit words. A mesh without routers
always fits, however wide or high it is. -/
def Fits : Prop :=
  s.width = 0 ∨ s.height = 0 ∨
    s.width.toNat * s.height.toNat ≤ UInt32.size ∧
      s.reach s.width < UInt32.size ∧ s.reach s.height < UInt32.size

instance : Decidable s.Fits :=
  inferInstanceAs (Decidable (_ ∨ _))

/-- **What fits.** A mesh fits if the number and the coordinates of each of its routers do. -/
theorem fits_iff :
    s.Fits ↔ ∀ p ∈ Topology.positions s.width.toNat s.height.toNat,
      s.number p < UInt32.size ∧ p.1 * s.pitch < UInt32.size ∧ p.2 * s.pitch < UInt32.size := by
  simp only [Fits, reach, number, ← UInt32.toNat_inj, Topology.mem_positions]
  generalize s.width.toNat = w, s.height.toNat = h
  constructor
  · rintro (hw | hh | ⟨hcount, hx, hy⟩) ⟨x, y⟩ ⟨ltw, lth⟩
    · exact absurd ltw (by simp [hw])
    · exact absurd lth (by simp [hh])
    · refine ⟨?_, ?_, ?_⟩
      · calc y * w + x < y * w + w := Nat.add_lt_add_left ltw _
          _ = (y + 1) * w := (Nat.succ_mul y w).symm
          _ ≤ h * w := Nat.mul_le_mul_right _ lth
          _ = w * h := Nat.mul_comm ..
          _ ≤ UInt32.size := hcount
      · exact Nat.lt_of_le_of_lt (Nat.mul_le_mul_right _ (Nat.le_sub_one_of_lt ltw)) hx
      · exact Nat.lt_of_le_of_lt (Nat.mul_le_mul_right _ (Nat.le_sub_one_of_lt lth)) hy
  · intro hall
    obtain _ | w := w
    · exact .inl rfl
    obtain _ | h := h
    · exact .inr (.inl rfl)
    obtain ⟨hcount, hx, hy⟩ := hall (w, h) ⟨Nat.lt_succ_self w, Nat.lt_succ_self h⟩
    refine .inr (.inr ⟨?_, hx, hy⟩)
    calc (w + 1) * (h + 1) = h * (w + 1) + w + 1 := by
          rw [Nat.mul_comm, Nat.succ_mul, Nat.add_assoc]
      _ ≤ UInt32.size := hcount

/-- The number of links: two for each two positions next to each other. -/
def linkCount : Nat :=
  2 * ((s.width.toNat - 1) * s.height.toNat + s.width.toNat * (s.height.toNat - 1))

/-- The numbers of all links fit into 32-bit words. -/
def LinksFit : Prop :=
  s.linkCount ≤ UInt32.size

instance : Decidable s.LinksFit :=
  inferInstanceAs (Decidable (_ ≤ _))

/-- The columns and rows of the mesh, row by row. -/
def positions : List (Nat × Nat) :=
  Topology.positions s.width.toNat s.height.toNat

/-- The neighbours that a router is linked to from its own position: the next column, then the next
row. -/
def neighbours (position : Nat × Nat) : List (Nat × Nat) :=
  let (x, y) := position
  (if x + 1 < s.width.toNat then [(x + 1, y)] else []) ++
    if y + 1 < s.height.toNat then [(x, y + 1)] else []

/-- The neighbours that are linked, row by row. -/
def ends : List ((Nat × Nat) × (Nat × Nat)) :=
  s.positions.flatMap fun p ↦ (s.neighbours p).map fun q ↦ (p, q)

/-- The router in a column and row, to be added. -/
def placeRouter (position : Nat × Nat) : Addition α :=
  .router (.ofNat (s.number position)) (s.tile position) s.routerLatency

/-- The two links between neighbours, to be added. -/
def connect (ends : (Nat × Nat) × (Nat × Nat)) : Addition α :=
  .linkPair (s.routerId ends.1) (s.routerId ends.2) s.linkBandwidth s.linkLatency

/-- All routers, and after them all links, in the order in which they are added. -/
def additions : List (Addition α) :=
  s.positions.map s.placeRouter ++ s.ends.map s.connect

/-- The mesh that the settings describe. -/
def build : Attempt α (Topology α) :=
  if s.Fits then s.additions.foldlM Topology.add .empty else Attempt.crash .overflow

end MeshSettings

end NetOnChip
