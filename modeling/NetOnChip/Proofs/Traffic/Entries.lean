import Mathlib.Data.List.Induction
import NetOnChip.Proofs.Route.Table
import NetOnChip.Proofs.Traffic

/-!
# The registry after any entries

Traffic grows by entries: a block is registered, or a flow is added (`Entry`). An entry *mentions*
blocks, and blocks become router blocks when they are first mentioned.

The registry keeps three things in step: the flows, the router blocks, and the flows of every router
block. After any entries each of them can be read off the entries alone (`registry_exact`):

* the flows are those that were added, in their order (`flows_foldl_enter`);
* the router blocks are the blocks that were mentioned, each where it was mentioned first
  (`Built.routerBlocks_foldl_enter`, `pairwise_eraseDups`);
* the flows of a block are those that start or end at it, in ascending order, because traffic that
  grew by entries was built (`Built.foldl_enter`).
-/

namespace NetOnChip

/-! ### First mentions -/

section Mentions

variable {β : Type} [DecidableEq β]

/-- One more mention is left out if it is not the first one. -/
theorem eraseDups_concat (l : List β) (b : β) :
    (l ++ [b]).eraseDups = if b ∈ l.eraseDups then l.eraseDups else l.eraseDups ++ [b] := by
  by_cases h : b ∈ l <;>
    simp [List.eraseDups_append, List.mem_eraseDups, List.removeAll, List.eraseDups_cons, h]

/-- Mentions that are left out change nothing about the order of the others. -/
theorem pairwise_eraseDups (l : List β) :
    l.eraseDups.Pairwise fun b c ↦ l.idxOf b < l.idxOf c := by
  -- mentions are added at the end, so the induction takes the last one off
  induction l using List.reverseRecOn with
  | nil => exact .nil
  | append_singleton l b ih =>
    have hbefore : l.eraseDups.Pairwise fun c d ↦ (l ++ [b]).idxOf c < (l ++ [b]).idxOf d := by
      refine ih.imp_of_mem fun hc hd h ↦ ?_
      rwa [List.idxOf_append_of_mem (List.mem_eraseDups.1 hc),
        List.idxOf_append_of_mem (List.mem_eraseDups.1 hd)]
    rw [eraseDups_concat]
    split
    · exact hbefore
    · rename_i hb
      refine List.pairwise_append.2 ⟨hbefore, List.pairwise_singleton _ b, fun c hc d hd ↦ ?_⟩
      rw [List.mem_singleton] at hd
      subst hd
      rw [List.mem_eraseDups] at hc hb
      rw [List.idxOf_append_of_mem hc, List.idxOf_append_of_notMem hb]
      exact Nat.lt_add_right _ (List.idxOf_lt_length_iff.2 hc)

end Mentions

namespace Traffic

variable {α : Type} {t : Traffic α}

/-! ### Entries -/

/-- An entry in the registry. -/
inductive Entry (α : Type) where
  /-- A block is registered. -/
  | block (b : BlockId)
  /-- A flow is added. -/
  | flow (flow : Flow α)

namespace Entry

/-- The blocks that an entry mentions, in order. -/
def mentions : Entry α → List BlockId
  | .block b => [b]
  | .flow f => [f.source, f.sink]

/-- The flow that an entry adds. -/
def flow? : Entry α → Option (Flow α)
  | .block _ => none
  | .flow f => some f

end Entry

/-- Traffic with one more entry. -/
def enter (t : Traffic α) : Entry α → Traffic α
  | .block b => t.register b
  | .flow flow => (t.add flow).2

theorem Built.enter (h : t.Built) (e : Entry α) : (t.enter e).Built := by
  cases e with
  | block b => exact .register b h
  | flow flow => exact .add flow h

/-- **Traffic that grows by entries was built.** -/
theorem Built.foldl_enter (h : t.Built) (entries : List (Entry α)) :
    (entries.foldl Traffic.enter t).Built := by
  induction entries generalizing t with
  | nil => exact h
  | cons e entries ih => exact ih (h.enter e)

/-! ### The flows -/

theorem flows_enter (e : Entry α) :
    (t.enter e).flows.toList = t.flows.toList ++ e.flow?.toList := by
  cases e with
  | block b => simp [enter, Entry.flow?, flows_register]
  | flow flow => simp [enter, Entry.flow?, flows_add]

/-- **The flows** are those that were added, in their order. -/
theorem flows_foldl_enter (entries : List (Entry α)) :
    (entries.foldl enter t).flows.toList = t.flows.toList ++ entries.filterMap Entry.flow? := by
  induction entries generalizing t with
  | nil => simp
  | cons e entries ih =>
    rw [List.foldl_cons, ih, flows_enter, List.append_assoc, List.filterMap_cons]
    cases e.flow? <;> rfl

/-- A flow that is added is found under the identifier that it is given, whatever is added later. -/
theorem flow_foldl_enter (entries : List (Entry α)) (flow : Flow α) :
    (entries.foldl enter (t.add flow).2).flow (t.add flow).1 = .ok flow := by
  have hfound : (entries.foldl enter (t.add flow).2).flows.toList[t.flows.size]? = some flow := by
    rw [flows_foldl_enter, flows_add]
    simp
  rw [Traffic.flow, Attempt.entry_eq_ok_iff, ← Array.getElem?_toList]
  exact hfound

/-! ### The router blocks -/

/-- Registering the next block that is mentioned. -/
theorem Built.routerBlocks_register {mentioned : List BlockId} (hbuilt : t.Built)
    (h : t.routerBlocks = mentioned.eraseDups) (b : BlockId) :
    (t.register b).routerBlocks = (mentioned ++ [b]).eraseDups := by
  rw [Traffic.routerBlocks_register, eraseDups_concat, ← h]
  simp only [hbuilt.mem_routerBlocks_iff]

theorem Built.routerBlocks_enter {mentioned : List BlockId} (hbuilt : t.Built)
    (h : t.routerBlocks = mentioned.eraseDups) (e : Entry α) :
    (t.enter e).routerBlocks = (mentioned ++ e.mentions).eraseDups := by
  cases e with
  | block b => exact hbuilt.routerBlocks_register h b
  | flow flow =>
    have hsource := hbuilt.routerBlocks_register h flow.source
    have hsink := (Built.register flow.source hbuilt).routerBlocks_register hsource flow.sink
    rw [List.append_assoc] at hsink
    exact (routerBlocks_add flow).trans hsink

/-- **The router blocks** are the blocks that were mentioned, each where it was mentioned first. -/
theorem Built.routerBlocks_foldl_enter {mentioned : List BlockId} (hbuilt : t.Built)
    (h : t.routerBlocks = mentioned.eraseDups) (entries : List (Entry α)) :
    (entries.foldl Traffic.enter t).routerBlocks =
      (mentioned ++ entries.flatMap Entry.mentions).eraseDups := by
  induction entries generalizing t mentioned with
  | nil => simpa using h
  | cons e entries ih =>
    rw [List.foldl_cons, ih (hbuilt.enter e) (hbuilt.routerBlocks_enter h e), List.flatMap_cons,
      List.append_assoc]

theorem mem_mentions_iff {entries : List (Entry α)} {b : BlockId} :
    b ∈ entries.flatMap Entry.mentions ↔
      .block b ∈ entries ∨ ∃ flow, .flow flow ∈ entries ∧ (flow.source = b ∨ flow.sink = b) := by
  rw [List.mem_flatMap]
  constructor
  · rintro ⟨e, he, hb⟩
    cases e with
    | block c =>
      rw [Entry.mentions, List.mem_singleton] at hb
      exact .inl (hb ▸ he)
    | flow flow =>
      refine .inr ⟨flow, he, ?_⟩
      simpa [Entry.mentions, eq_comm] using hb
  · rintro (hb | ⟨flow, hflow, hb⟩)
    · exact ⟨_, hb, List.mem_singleton_self b⟩
    · refine ⟨_, hflow, ?_⟩
      simpa [Entry.mentions, eq_comm] using hb

/-! ### The registry -/

/-- **The registry is exact**, whatever was entered and in whichever order.

* The flows are those that were added, in their order, and a flow is found under the identifier that
  it was given.
* The flows of a block are those that start or end at it, in ascending order, so that a flow from a
  block to itself is listed once.
* The router blocks are those that were registered or that a flow starts or ends at. They are listed
  in the order in which they were first mentioned, so each of them once. -/
theorem registry_exact (entries : List (Entry α)) :
    let t := entries.foldl enter empty
    let mentioned := entries.flatMap Entry.mentions
    (t.flows.toList = entries.filterMap Entry.flow? ∧
      ∀ before flow after, entries = before ++ .flow flow :: after →
        t.flow ((before.foldl enter empty).add flow).1 = .ok flow) ∧
    (∀ b, Crossings.Ascending (t.flowsOf b) ∧
      ∀ f, f ∈ t.flowsOf b ↔ ∃ flow, t.flow f = .ok flow ∧ (flow.source = b ∨ flow.sink = b)) ∧
    (∀ b, t.isRouterBlock b = true ↔
      .block b ∈ entries ∨ ∃ flow, .flow flow ∈ entries ∧ (flow.source = b ∨ flow.sink = b)) ∧
    (∀ b, b ∈ t.routerBlocks ↔ t.isRouterBlock b = true) ∧
      t.routerBlocks.Nodup ∧
      t.routerBlocks.Pairwise fun b c ↦ mentioned.idxOf b < mentioned.idxOf c := by
  intro t mentioned
  have hbuilt : t.Built := Built.empty.foldl_enter entries
  have hempty : (empty : Traffic α).routerBlocks = [].eraseDups := rfl
  have hblocks : t.routerBlocks = mentioned.eraseDups :=
    Built.empty.routerBlocks_foldl_enter hempty entries
  have hrouter : ∀ b, t.isRouterBlock b = true ↔ b ∈ mentioned := fun b ↦ by
    rw [← hbuilt.mem_routerBlocks_iff, hblocks, List.mem_eraseDups]
  have horder : t.routerBlocks.Pairwise fun b c ↦ mentioned.idxOf b < mentioned.idxOf c :=
    hblocks ▸ pairwise_eraseDups mentioned
  refine ⟨⟨?_, ?_⟩, fun b ↦ ⟨?_, fun f ↦ hbuilt.mem_flowsOf_iff⟩, fun b ↦ ?_,
    hbuilt.mem_routerBlocks_iff,
    horder.imp fun h e ↦ absurd (e ▸ h) (Nat.lt_irrefl _), horder⟩
  · exact flows_foldl_enter entries
  · rintro before flow after rfl
    show ((before ++ .flow flow :: after).foldl enter empty).flow _ = _
    rw [List.foldl_append, List.foldl_cons]
    exact flow_foldl_enter after flow
  · rw [hbuilt.flowsOf_eq]
    exact (Crossings.ascending_range t.flows.size).filter _
  · exact (hrouter b).trans mem_mentions_iff

end Traffic

end NetOnChip
