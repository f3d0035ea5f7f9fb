import NetOnChip.Traffic

/-!
# Traffic that was built

Traffic is built by registering blocks and adding flows (`Traffic.Built`). The registry is then
exact: the flows of a block are those that start or end at it, each once and in ascending order
(`Built.flowsOf_eq`), and the blocks that are listed are those with an entry in the dictionary
(`Built.mem_routerBlocks_iff`).
-/

namespace NetOnChip

namespace Traffic

variable {α : Type} {t : Traffic α} {b c : BlockId} {f : FlowId}

/-- The traffic that can be built. -/
inductive Built : Traffic α → Prop where
  /-- No flows and no router blocks. -/
  | empty : Built .empty
  /-- A block was registered. -/
  | register {t : Traffic α} (b : BlockId) : Built t → Built (t.register b)
  /-- A flow was added. -/
  | add {t : Traffic α} (flow : Flow α) : Built t → Built (t.add flow).2

/-- Whether a flow starts or ends at a block. -/
def touches (t : Traffic α) (b : BlockId) (f : FlowId) : Bool :=
  t.flows[f.index]?.any fun flow ↦ flow.source = b || flow.sink = b

theorem touches_iff :
    t.touches b f = true ↔
      ∃ flow, t.flow f = .ok flow ∧ (flow.source = b ∨ flow.sink = b) := by
  simp [touches, Option.any_eq_true, flow, Attempt.entry_eq_ok_iff]

/-! ### Changing the registry -/

theorem flowsByBlock_register :
    (t.register b).flowsByBlock.get? c =
      (t.flowsByBlock.get? c).or (if b = c then some [] else none) := by
  unfold register
  split
  · rename_i h
    obtain ⟨flows, hflows⟩ := Dictionary.contains_iff.1 h
    split
    · rename_i hbc
      rw [← hbc, hflows, Option.some_or]
    · rw [Option.or_none]
  · rename_i h
    have hnone := Dictionary.contains_eq_false_iff.1 (Bool.eq_false_iff.2 h)
    show (t.flowsByBlock.insert b []).get? c = _
    rw [Dictionary.get?_insert]
    split
    · rename_i hbc
      rw [← hbc, hnone, Option.none_or]
    · rw [Option.or_none]

theorem flowsByBlock_associate :
    (t.associate f b).flowsByBlock.get? c =
      (t.flowsByBlock.get? c).map fun flows ↦ if b = c then flows ++ [f] else flows :=
  Dictionary.get?_modify ..

/-- The entries after a flow was added: both of its blocks list it last, and if they are one block
then it is listed there once. -/
theorem flowsByBlock_add (flow : Flow α) :
    (t.add flow).2.flowsByBlock.get? c =
      if flow.source = c ∨ flow.sink = c then
        some ((t.flowsByBlock.get? c).getD [] ++ [⟨t.flows.size⟩])
      else t.flowsByBlock.get? c := by
  have hregister : ((({ t with flows := t.flows.push flow } : Traffic α).register
      flow.source).register flow.sink).flowsByBlock.get? c =
      if flow.source = c ∨ flow.sink = c then some ((t.flowsByBlock.get? c).getD [])
      else t.flowsByBlock.get? c := by
    rw [flowsByBlock_register, flowsByBlock_register]
    cases t.flowsByBlock.get? c with
    | some flows => simp
    | none => by_cases hsource : flow.source = c <;> by_cases hsink : flow.sink = c <;> simp_all
  rw [add]
  by_cases hself : flow.sink = flow.source
  · simp only [if_pos hself]
    rw [flowsByBlock_associate, hregister]
    by_cases hsource : flow.source = c
    · simp [hsource]
    · simp [hself, hsource]
  · simp only [if_neg hself]
    rw [flowsByBlock_associate, flowsByBlock_associate, hregister]
    by_cases hsource : flow.source = c
    · simp [hsource, hsource ▸ hself]
    · by_cases hsink : flow.sink = c <;> simp [hsource, hsink]

theorem flowsOf_add (flow : Flow α) :
    (t.add flow).2.flowsOf c =
      t.flowsOf c ++ if flow.source = c ∨ flow.sink = c then [⟨t.flows.size⟩] else [] := by
  rw [flowsOf, flowsOf, flowsByBlock_add]
  split <;> simp

theorem flowsOf_register : (t.register b).flowsOf c = t.flowsOf c := by
  rw [flowsOf, flowsOf, flowsByBlock_register]
  cases t.flowsByBlock.get? c with
  | some flows => rw [Option.some_or]
  | none => split <;> rfl

theorem flows_register : (t.register b).flows = t.flows := by
  unfold register
  split <;> rfl

theorem flows_add (flow : Flow α) : (t.add flow).2.flows = t.flows.push flow := by
  rw [add]
  split <;> simp [associate, flows_register]

/-! ### Router blocks -/

/-- Registering a block makes a router block of it, and of no other. -/
theorem isRouterBlock_register :
    (t.register b).isRouterBlock c = (decide (b = c) || t.isRouterBlock c) := by
  rw [isRouterBlock, register]
  split
  · rename_i h
    by_cases hbc : b = c
    · simp [← hbc, h]
    · simp [hbc, isRouterBlock]
  · exact Dictionary.contains_insert [] c

/-- Adding a flow to those of a block makes no router block. -/
theorem isRouterBlock_associate : (t.associate f b).isRouterBlock c = t.isRouterBlock c :=
  Dictionary.contains_modify ..

/-- **The blocks of a flow** become router blocks when it is added, and no other blocks do. -/
theorem isRouterBlock_add (flow : Flow α) :
    (t.add flow).2.isRouterBlock c =
      (decide (flow.sink = c) || (decide (flow.source = c) || t.isRouterBlock c)) := by
  have hregister : ((({ t with flows := t.flows.push flow } : Traffic α).register
      flow.source).register flow.sink).isRouterBlock c =
      (decide (flow.sink = c) || (decide (flow.source = c) || t.isRouterBlock c)) := by
    rw [isRouterBlock_register, isRouterBlock_register]
    rfl
  rw [add]
  split
  · rw [isRouterBlock_associate, hregister]
  · rw [isRouterBlock_associate, isRouterBlock_associate, hregister]

theorem routerBlocks_register :
    (t.register b).routerBlocks =
      if t.isRouterBlock b then t.routerBlocks else t.routerBlocks ++ [b] := by
  rw [register, isRouterBlock]
  split <;> rfl

theorem routerBlocks_add (flow : Flow α) :
    (t.add flow).2.routerBlocks =
      ((t.register flow.source).register flow.sink).routerBlocks := by
  have hpushed : ((({ t with flows := t.flows.push flow } : Traffic α).register
      flow.source).register flow.sink).routerBlocks =
      ((t.register flow.source).register flow.sink).routerBlocks := by
    rw [routerBlocks_register, routerBlocks_register, routerBlocks_register, routerBlocks_register,
      isRouterBlock_register, isRouterBlock_register]
    rfl
  rw [add]
  split <;> exact hpushed

/-- The registry lists the blocks that have an entry in its dictionary. -/
def ListsBlocks (t : Traffic α) : Prop :=
  ∀ b, b ∈ t.routerBlocks ↔ t.isRouterBlock b = true

theorem ListsBlocks.register (h : t.ListsBlocks) (b : BlockId) : (t.register b).ListsBlocks := by
  intro c
  rw [routerBlocks_register, isRouterBlock_register]
  split
  · rename_i hb
    rw [h c]
    by_cases hbc : b = c
    · simp [← hbc, hb]
    · simp [hbc]
  · rw [List.mem_append, List.mem_singleton, h c, Bool.or_eq_true, decide_eq_true_iff, or_comm,
      eq_comm]

theorem ListsBlocks.add (h : t.ListsBlocks) (flow : Flow α) : (t.add flow).2.ListsBlocks := by
  intro c
  rw [routerBlocks_add, isRouterBlock_add, (h.register flow.source).register flow.sink c,
    isRouterBlock_register, isRouterBlock_register]

/-- **The list of router blocks and the dictionary agree.** -/
theorem Built.mem_routerBlocks_iff (h : t.Built) :
    ∀ b, b ∈ t.routerBlocks ↔ t.isRouterBlock b = true := by
  induction h with
  | empty => exact fun _ ↦ iff_of_false List.not_mem_nil nofun
  | register b _ ih => exact ListsBlocks.register ih b
  | add flow _ ih => exact ListsBlocks.add ih flow

/-! ### The flows of a block -/

/-- **The flows of a block** are those that start or end at it, in ascending order. -/
theorem Built.flowsOf_eq (h : t.Built) (b : BlockId) :
    t.flowsOf b = t.flowIds.filter (t.touches b) := by
  induction h with
  | empty => rfl
  | @register t c _ ih =>
    have htouches : (t.register c).touches b = t.touches b := by
      funext f
      rw [touches, touches, flows_register]
    rw [flowsOf_register, ih, flowIds, flowIds, flows_register, htouches]
  | @add t flow _ ih =>
    have hbefore : ∀ f ∈ Id.range t.flows.size, (t.add flow).2.touches b f = t.touches b f := by
      intro f hf
      rw [touches, touches, flows_add, Array.getElem?_push,
        if_neg (Nat.ne_of_lt (Id.mem_range.1 hf))]
    have hlast : (t.add flow).2.touches b ⟨t.flows.size⟩ =
        decide (flow.source = b ∨ flow.sink = b) := by
      rw [touches, flows_add, Array.getElem?_push, if_pos rfl, Option.any_some, Bool.decide_or]
    rw [flowsOf_add, ih, flowIds, flowIds, flows_add, Array.size_push, Id.range_succ,
      List.filter_append, List.filter_congr hbefore]
    by_cases htouch : flow.source = b ∨ flow.sink = b <;> simp [htouch, hlast]

theorem Built.mem_flowsOf_iff (h : t.Built) :
    f ∈ t.flowsOf b ↔ ∃ flow, t.flow f = .ok flow ∧ (flow.source = b ∨ flow.sink = b) := by
  rw [h.flowsOf_eq, List.mem_filter, touches_iff]
  refine and_iff_right_of_imp ?_
  rintro ⟨flow, hflow, -⟩
  exact Id.mem_range.2 (Array.getElem?_eq_some_iff.1 (Attempt.entry_eq_ok_iff.1 hflow)).1

end Traffic

end NetOnChip
