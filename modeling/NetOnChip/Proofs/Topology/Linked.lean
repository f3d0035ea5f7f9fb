import NetOnChip.Proofs.Topology.Mesh

/-!
# The links of a mesh

The links of a mesh are numbered by the ordered pairs of positions next to each other (`linked`).
Each pair is listed once (`nodup_linked`), so the links can be counted by counting the positions
that have a next column or a next row (`length_linked`).
-/

namespace NetOnChip

/-! ### Counting positions -/

/-- The positions that satisfy a condition, if those are the positions of another grid. -/
theorem Topology.countP_positions {width height width' height' : Nat} {P : Nat × Nat → Bool}
    (hP : ∀ p : Nat × Nat,
      (p.1 < width ∧ p.2 < height) ∧ P p = true ↔ p.1 < width' ∧ p.2 < height') :
    (positions width height).countP P = width' * height' := by
  have hperm : ((positions width height).filter P).Perm (positions width' height') := by
    refine (List.perm_ext_iff_of_nodup ((nodup_positions ..).filter _) (nodup_positions ..)).2 ?_
    intro p
    rw [List.mem_filter, mem_positions, mem_positions, hP]
  rw [List.countP_eq_length_filter, hperm.length_eq, length_positions]

namespace MeshSettings

variable {α : Type}

/-! ### Linked positions -/

/-- The positions that links lead from and to, in the order of the links. -/
def linked (s : MeshSettings α) : List ((Nat × Nat) × (Nat × Nat)) :=
  s.ends.flatMap fun e ↦ [e, e.swap]

variable {s : MeshSettings α} {t : Topology α} {p q : Nat × Nat}

theorem linksOf_ends (s : MeshSettings α) :
    s.linksOf s.ends = s.linked.map fun e ↦ s.link e.1 e.2 := by
  rw [linksOf, linked, List.map_flatMap]
  rfl

/-- **Links lead between positions next to each other**, in both directions. -/
theorem mem_linked :
    (p, q) ∈ s.linked ↔ p ∈ s.positions ∧ q ∈ s.positions ∧ Adjacent p q := by
  have hmem : (p, q) ∈ s.linked ↔ (p, q) ∈ s.ends ∨ (q, p) ∈ s.ends := by
    simp only [linked, List.mem_flatMap, List.mem_pair, Prod.exists, Prod.swap_prod_mk,
      Prod.mk.injEq]
    grind
  rw [hmem, mem_ends, mem_ends]
  constructor
  · rintro (⟨hp, hq⟩ | ⟨hq, hp⟩)
    · exact ⟨hp, mem_positions_of_mem_neighbours hp hq, adjacent_of_mem_neighbours hq⟩
    · exact ⟨mem_positions_of_mem_neighbours hq hp, hq, (adjacent_of_mem_neighbours hp).symm⟩
  · rintro ⟨hp, hq, hadjacent⟩
    exact (mem_neighbours_or hp hq hadjacent).imp (⟨hp, ·⟩) (⟨hq, ·⟩)

/-- No position is a neighbour of its own neighbour, because neighbours come later. -/
theorem not_mem_neighbours_of_mem (h : q ∈ s.neighbours p) : p ∉ s.neighbours q := by
  rw [mem_neighbours] at h ⊢
  omega

theorem nodup_neighbours (s : MeshSettings α) (p : Nat × Nat) : (s.neighbours p).Nodup := by
  simp only [neighbours]
  split <;> split <;> simp

/-- A position may have a neighbour in the next column and one in the next row. -/
theorem length_neighbours (s : MeshSettings α) (p : Nat × Nat) :
    (s.neighbours p).length =
      (if p.1 + 1 < s.width.toNat then 1 else 0) + if p.2 + 1 < s.height.toNat then 1 else 0 := by
  simp only [neighbours]
  split <;> split <;> rfl

theorem nodup_ends : s.ends.Nodup := by
  refine List.nodup_flatMap.2 ⟨fun p _ ↦ ?_, ?_⟩
  · exact (s.nodup_neighbours p).map fun _ _ h ↦ congrArg Prod.snd h
  · refine nodup_positions.imp fun {p p'} hne ↦ ?_
    refine List.disjoint_left.2 fun e he he' ↦ hne ?_
    obtain ⟨_, -, rfl⟩ := List.mem_map.1 he
    obtain ⟨_, -, heq⟩ := List.mem_map.1 he'
    exact (congrArg Prod.fst heq).symm

/-- **No two links are parallel.** -/
theorem nodup_linked : s.linked.Nodup := by
  have hnext : ∀ e ∈ s.ends, e.2 ∈ s.neighbours e.1 := fun e he ↦ (mem_ends.1 he).2
  refine List.nodup_flatMap.2 ⟨fun e he ↦ ?_, ?_⟩
  · have hne : e ≠ e.swap := fun heq ↦ by
      have hback : e.1 ∈ s.neighbours e.2 := hnext e.swap (heq ▸ he)
      exact not_mem_neighbours_of_mem (hnext e he) hback
    simpa using hne
  · refine nodup_ends.imp_of_mem fun {e e'} he he' hne ↦ ?_
    refine List.disjoint_left.2 fun d hd hd' ↦ ?_
    -- a link of both pairs leads the same way in both, or it leads back in one of them
    rcases List.mem_pair.1 hd with rfl | rfl <;> rcases List.mem_pair.1 hd' with heq | heq
    · exact hne heq
    · subst heq
      exact not_mem_neighbours_of_mem (hnext e' he') (hnext _ he)
    · subst heq
      exact not_mem_neighbours_of_mem (hnext e he) (hnext _ he')
    · exact hne (Prod.swap_injective heq)

/-- Every row has one pair of neighbours less than positions, and so has every column. -/
theorem length_linked (s : MeshSettings α) : s.linked.length = s.linkCount := by
  have hends : s.ends.length =
      s.positions.countP (fun p ↦ p.1 + 1 < s.width.toNat) +
        s.positions.countP fun p ↦ p.2 + 1 < s.height.toNat := by
    rw [ends]
    induction s.positions with
    | nil => rfl
    | cons p ps ih =>
      rw [List.flatMap_cons, List.length_append, ih, List.length_map, length_neighbours,
        List.countP_cons, List.countP_cons]
      simp only [decide_eq_true_iff]
      omega
  have hcolumns : s.positions.countP (fun p ↦ p.1 + 1 < s.width.toNat) =
      (s.width.toNat - 1) * s.height.toNat := Topology.countP_positions fun p ↦ by
    rw [decide_eq_true_iff]
    omega
  have hrows : s.positions.countP (fun p ↦ p.2 + 1 < s.height.toNat) =
      s.width.toNat * (s.height.toNat - 1) := Topology.countP_positions fun p ↦ by
    rw [decide_eq_true_iff]
    omega
  rw [linked, List.length_flatMap, linkCount, ← hcolumns, ← hrows, ← hends]
  simp [Nat.mul_comm]

/-- **A mesh has as many links** as its settings tell. -/
theorem IsMesh.size_links (h : s.IsMesh t) : t.links.size = s.linkCount := by
  rw [h.links_eq, linksOf_ends, List.size_toArray, List.length_map, length_linked]

end MeshSettings

end NetOnChip
