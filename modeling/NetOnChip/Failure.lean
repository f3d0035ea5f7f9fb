import NetOnChip.Algorithm
import NetOnChip.Id
import NetOnChip.Scalar
import NetOnChip.Tile

/-!
# Failures

An operation fails in one of two ways.

* An `Error` answers a request that cannot be met, such as routing between routers that no links
  connect. The operation ends, and the state it leaves is part of its contract.
* A `Fault` says that a request was not well formed, such as one that names a router past the end
  of the table. Nothing can be said about the state after it.

Errors are causes; their wording is in `NetOnChip.Failure.Message`.
-/

namespace NetOnChip

/-- The four ways to step on the grid. -/
inductive Direction where
  | left
  | right
  | up
  | down
  deriving DecidableEq, Repr

/-- Why no route was found. -/
inductive Obstacle where
  /-- The links do not lead to the sink. -/
  | unreachable
  /-- A router on the way has no link in the direction to take. -/
  | noLinkHeading (router : RouterId) (direction : Direction)
  /-- The route would come to a router for the second time. -/
  | revisits (router : RouterId)
  deriving DecidableEq, Repr

/-- What is wrong with a stored route. -/
inductive Flaw where
  /-- The number of routes is not the number of flows. -/
  | wrongCount (routes flows : Nat)
  /-- The route names a link that does not exist. -/
  | noSuchLink (link : LinkId)
  /-- The route is empty although its ends differ. -/
  | emptyBetween (source sink : RouterId)
  /-- The route does not start at the router of the source block. -/
  | startsAt (actual expected : RouterId)
  /-- A link does not start where the link before it ends. -/
  | broken (link previous : LinkId)
  /-- The route does not end at the router of the sink block. -/
  | endsAt (actual expected : RouterId)
  deriving DecidableEq, Repr

/-- The two terms that the cost of the network consists of. -/
inductive CostTerm where
  /-- Bandwidth summed over the links that carry it. -/
  | aggregateBandwidth
  /-- Latency, and its overrun where it is limited. -/
  | latency
  deriving DecidableEq, Repr

/-- Why a request cannot be met. -/
inductive Error (α : Type) where
  /-- A routing algorithm found no route. -/
  | routingFailed (algorithm : Algorithm) (source sink : RouterId) (obstacle : Obstacle)
  /-- A block is not on the grid. -/
  | unplacedBlock (block : BlockId)
  /-- A block is on a tile without a router. -/
  | noRouterAt (block : BlockId) (tile : Tile)
  /-- No routing algorithm has this name. -/
  | unknownAlgorithm (name : String)
  /-- Two routers cannot share a tile. -/
  | occupiedTile (tile : Tile)
  /-- A tracked cost term is too far from its recomputed value. -/
  | costDrift (term : CostTerm) (tracked recomputed tolerance : α)
  /-- The usage of a link is too far from the demand of the flows routed over it. -/
  | usageMismatch (link : LinkId) (tracked expected : α)
  /-- A stored route does not serve its flow. -/
  | invalidRoute (flow : FlowId) (flaw : Flaw)
  /-- The flows have to be routed first. -/
  | notInitialized
  /-- The flows are routed already. -/
  | alreadyInitialized
  deriving DecidableEq, Repr

/-- Why a request was not well formed. -/
inductive Fault where
  /-- An identifier lies past the end of its table. -/
  | missing (kind : Kind) (index : Nat)
  /-- A random number was asked for from a range that holds none. -/
  | emptyRange
  /-- A probability is not between zero and one. -/
  | improperProbability
  /-- Random choices were rejected until patience ran out. -/
  | drawsExhausted
  /-- A search took more steps than there are routers. -/
  | stepsExhausted
  /-- A coordinate, a number or an extent does not fit into a 32-bit word. -/
  | overflow
  /-- A table would have more entries than any table can have. -/
  | tableTooLarge
  deriving DecidableEq, Repr

/-- The number of entries that is out of reach for a table. -/
def tableLimit : Nat :=
  Nat.pow 2 58

/-- Why an operation came to no value. -/
inductive Failure (α : Type) where
  /-- The request cannot be met. -/
  | error (cause : Error α)
  /-- The request was not well formed. -/
  | fault (cause : Fault)
  deriving DecidableEq, Repr

/-- A value, or the reason why there is none. -/
abbrev Attempt (α β : Type) := Except (Failure α) β

namespace Attempt

variable {α β : Type}

/-- Ends with an error. -/
def fail (e : Error α) : Attempt α β :=
  .error (.error e)

/-- Ends with a fault. -/
def crash (f : Fault) : Attempt α β :=
  .error (.fault f)

/-- The entry of a table that an identifier stands for. -/
def entry {kind : Kind} (table : Array β) (i : Id kind) : Attempt α β :=
  match table[i.index]? with
  | some b => .ok b
  | none => crash (.missing kind i.index)

/-- A number as a 32-bit word, into which it has to fit. -/
def word (n : Nat) : Attempt α UInt32 :=
  match word? n with
  | some w => .ok w
  | none => crash .overflow

/-- An attempt that ends with a value or with an error, and not with a fault. -/
def Proper (x : Attempt α β) : Prop :=
  ∀ f : Fault, x ≠ .error (.fault f)

instance (x : Attempt α β) : Decidable x.Proper :=
  match x with
  | .ok _ => .isTrue fun _ h ↦ nomatch h
  | .error (.error _) => .isTrue fun _ h ↦ nomatch h
  | .error (.fault f) => .isFalse fun h ↦ h f rfl

@[simp] theorem ok_bind {γ : Type} (b : β) (k : β → Attempt α γ) :
    (Except.ok b : Attempt α β) >>= k = k b := rfl

@[simp] theorem error_bind {γ : Type} (e : Failure α) (k : β → Attempt α γ) :
    (Except.error e : Attempt α β) >>= k = .error e := rfl

/-- **An attempt goes on with a value only.** -/
theorem bind_eq_ok_iff {γ : Type} {x : Attempt α β} {k : β → Attempt α γ} {c : γ} :
    x >>= k = .ok c ↔ ∃ b, x = .ok b ∧ k b = .ok c := by
  cases x with
  | ok b => simp
  | error e => simp

/-- An attempt fails at its first step or later. -/
theorem bind_eq_fail_iff {γ : Type} {x : Attempt α β} {k : β → Attempt α γ}
    {e : Error α} : x >>= k = fail e ↔ x = fail e ∨ ∃ b, x = .ok b ∧ k b = fail e := by
  cases x with
  | ok b => simp [fail]
  | error e => simp [fail]

theorem proper_ok (b : β) : Proper (.ok b : Attempt α β) := by
  simp [Proper]

theorem proper_error (e : Error α) : Proper (.error (.error e) : Attempt α β) := by
  simp [Proper]

theorem proper_map {γ : Type} {g : β → γ} {x : Attempt α β} :
    Proper (x.map g : Attempt α γ) ↔ x.Proper := by
  cases x <;> simp [Proper, Except.map]

/-- An attempt goes on without a fault if no step ends with one. -/
theorem Proper.bind {γ : Type} {x : Attempt α β} {k : β → Attempt α γ} (h : x.Proper)
    (hk : ∀ b, x = .ok b → (k b).Proper) : (x >>= k).Proper := by
  match x with
  | .ok b => exact hk b rfl
  | .error e => exact fun f hf ↦ h f (congrArg Except.error (Except.error.inj hf))

/-- What an attempt ensures: it does not end with a fault, and the value that it may end with
satisfies a condition. -/
def Ensures (P : β → Prop) : Attempt α β → Prop
  | .ok b => P b
  | .error (.error _) => True
  | .error (.fault _) => False

theorem Ensures.proper {P : β → Prop} {x : Attempt α β} (h : x.Ensures P) : x.Proper := by
  rintro f rfl
  exact h

theorem Ensures.of_eq_ok {P : β → Prop} {x : Attempt α β} (h : x.Ensures P) {b : β}
    (hx : x = .ok b) : P b := by
  subst hx
  exact h

theorem ensures_iff {P : β → Prop} {x : Attempt α β} :
    x.Ensures P ↔ x.Proper ∧ ∀ b, x = .ok b → P b := by
  refine ⟨fun h ↦ ⟨h.proper, fun _ ↦ h.of_eq_ok⟩, fun ⟨hproper, hval⟩ ↦ ?_⟩
  match x with
  | .ok b => exact hval b rfl
  | .error (.error _) => trivial
  | .error (.fault f) => exact hproper f rfl

theorem Ensures.mono {P Q : β → Prop} {x : Attempt α β} (h : x.Ensures P) (hPQ : ∀ b, P b → Q b) :
    x.Ensures Q :=
  ensures_iff.2 ⟨h.proper, fun b hb ↦ hPQ b (h.of_eq_ok hb)⟩

/-- **What the first step ensures is what the next one may rely on.** -/
theorem Ensures.bind {γ : Type} {P : β → Prop} {Q : γ → Prop} {x : Attempt α β}
    {k : β → Attempt α γ} (h : x.Ensures P) (hk : ∀ b, P b → (k b).Ensures Q) :
    (x >>= k).Ensures Q := by
  match x with
  | .ok b => exact hk b h
  | .error (.error _) => trivial
  | .error (.fault _) => exact h

/-- An attempt that ends with a value that satisfies a condition. -/
def Yields (P : β → Prop) (x : Attempt α β) : Prop :=
  ∃ b, x = .ok b ∧ P b

theorem Yields.ensures {P : β → Prop} {x : Attempt α β} (h : x.Yields P) : x.Ensures P := by
  obtain ⟨b, rfl, hb⟩ := h
  exact hb

/-- The value is known. -/
theorem Yields.self {P : β → Prop} {x : Attempt α β} (h : x.Yields P) :
    x.Yields fun b ↦ x = .ok b ∧ P b := by
  obtain ⟨b, rfl, hb⟩ := h
  exact ⟨b, rfl, rfl, hb⟩

theorem Yields.bind {γ : Type} {P : β → Prop} {Q : γ → Prop} {x : Attempt α β}
    {k : β → Attempt α γ} (h : x.Yields P) (hk : ∀ b, P b → (k b).Yields Q) :
    (x >>= k).Yields Q := by
  obtain ⟨b, rfl, hb⟩ := h
  exact hk b hb

/-- A fold of steps yields what each of them keeps. -/
theorem Yields.foldlM {γ : Type} {P : γ → Prop} {step : γ → β → Attempt α γ} {l : List β} {c : γ}
    (hc : P c) (hstep : ∀ c, P c → ∀ b ∈ l, (step c b).Yields P) :
    (l.foldlM (m := Attempt α) step c).Yields P := by
  induction l generalizing c with
  | nil => exact ⟨c, rfl, hc⟩
  | cons b l ih =>
    rw [List.foldlM_cons]
    refine (hstep c hc b List.mem_cons_self).bind fun c' hc' ↦ ih hc' fun c hc b hb ↦ ?_
    exact hstep c hc b (List.mem_cons_of_mem _ hb)

/-- Attempts that all succeed succeed together. -/
theorem mapM_eq_ok {γ : Type} {g : β → Attempt α γ} {v : β → γ} {l : List β}
    (h : ∀ b ∈ l, g b = .ok (v b)) : l.mapM g = .ok (l.map v) := by
  induction l with
  | nil => rfl
  | cons b l ih =>
    obtain ⟨hb, hl⟩ := List.forall_mem_cons.1 h
    rw [List.mapM_cons, hb, ih hl]
    rfl

/-- Attempts that succeed together succeed one by one. -/
theorem exists_of_mapM_eq_ok {γ : Type} {g : β → Attempt α γ} {l : List β} {cs : List γ}
    (h : l.mapM g = .ok cs) {b : β} (hb : b ∈ l) : ∃ c, g b = .ok c := by
  induction l generalizing cs with
  | nil => exact absurd hb List.not_mem_nil
  | cons b' l ih =>
    rw [List.mapM_cons] at h
    obtain ⟨c, hc, h⟩ := bind_eq_ok_iff.1 h
    obtain ⟨_, hl, _⟩ := bind_eq_ok_iff.1 h
    rcases List.mem_cons.1 hb with rfl | hb'
    · exact ⟨c, hc⟩
    · exact ih hl hb'

/-- An attempt that requires a condition. -/
theorem guard_eq_ok_iff {c : Prop} [Decidable c] {x : Attempt α β} {e : Error α} {b : β} :
    (if c then x else fail e) = .ok b ↔ c ∧ x = .ok b := by
  split <;> simp [*, fail]

/-- A check that requires a condition does not end with a fault if what follows does not. -/
theorem proper_guard {c : Prop} [Decidable c] {x : Attempt α β} {e : Error α} (h : c → x.Proper) :
    Proper (if c then x else fail e) := by
  split
  · exact h ‹_›
  · exact proper_error e

/-- Checks that are made in a row pass if each of them does. -/
theorem forM_eq_ok_iff {g : β → Attempt α Unit} {l : List β} :
    l.forM g = .ok () ↔ ∀ b ∈ l, g b = .ok () := by
  induction l with
  | nil => exact iff_of_true rfl (by simp)
  | cons b l ih =>
    have hcons : (b :: l).forM g = g b >>= fun _ ↦ l.forM g := rfl
    rw [hcons, bind_eq_ok_iff, List.forall_mem_cons, ih]
    exact ⟨fun ⟨_, hb, hl⟩ ↦ ⟨hb, hl⟩, fun ⟨hb, hl⟩ ↦ ⟨(), hb, hl⟩⟩

/-- Checks that are made in a row fail at the first one that does, after all before it passed. -/
theorem forM_eq_error_iff {g : β → Attempt α Unit} {l : List β} {e : Failure α} :
    l.forM g = .error e ↔
      ∃ before b after, l = before ++ b :: after ∧ (∀ c ∈ before, g c = .ok ()) ∧
        g b = .error e := by
  induction l with
  | nil =>
    refine iff_of_false nofun ?_
    rintro ⟨before, b, after, h, -⟩
    exact absurd h (by simp)
  | cons b l ih =>
    have hcons : (b :: l).forM g = g b >>= fun _ ↦ l.forM g := rfl
    rw [hcons]
    cases hb : g b with
    | error why =>
      rw [error_bind]
      constructor
      · rintro ⟨⟩
        exact ⟨[], b, l, rfl, nofun, hb⟩
      · rintro ⟨_ | ⟨c, before⟩, b', after, h, hbefore, hb'⟩
        · obtain ⟨rfl, rfl⟩ := List.cons.inj h
          exact hb.symm.trans hb'
        · obtain ⟨rfl, rfl⟩ := List.cons.inj h
          exact absurd (hb.symm.trans (hbefore b List.mem_cons_self)) nofun
    | ok u =>
      rw [ok_bind, ih]
      constructor
      · rintro ⟨before, b', after, rfl, hbefore, hb'⟩
        exact ⟨b :: before, b', after, rfl, List.forall_mem_cons.2 ⟨hb, hbefore⟩, hb'⟩
      · rintro ⟨_ | ⟨c, before⟩, b', after, h, hbefore, hb'⟩
        · obtain ⟨rfl, rfl⟩ := List.cons.inj h
          exact absurd (hb.symm.trans hb') nofun
        · obtain ⟨rfl, rfl⟩ := List.cons.inj h
          exact ⟨before, b', after, rfl, (List.forall_mem_cons.1 hbefore).2, hb'⟩

theorem proper_forM {g : β → Attempt α Unit} {l : List β} (h : ∀ b ∈ l, (g b).Proper) :
    (l.forM g).Proper := by
  intro f hf
  obtain ⟨before, b, after, rfl, -, hb⟩ := forM_eq_error_iff.1 hf
  exact h b (List.mem_append_right before List.mem_cons_self) f hb

theorem word_eq_ok_iff {n : Nat} {w : UInt32} :
    (word n : Attempt α UInt32) = .ok w ↔ w.toNat = n := by
  rw [← word?_eq_some_iff]
  unfold word
  split <;> rename_i h <;> simp [h, crash]

theorem word_eq_crash_iff {n : Nat} :
    (word n : Attempt α UInt32) = crash .overflow ↔ UInt32.size ≤ n := by
  rw [← word?_eq_none_iff]
  unfold word
  split <;> rename_i h <;> simp [h, crash]

theorem yields_word {n : Nat} (h : n < UInt32.size) :
    (word n : Attempt α UInt32).Yields fun w ↦ w.toNat = n := by
  refine ⟨.ofNat n, word_eq_ok_iff.2 ?_, ?_⟩ <;> exact UInt32.toNat_ofNat_of_lt' h

theorem entry_eq_ok_iff {kind : Kind} {table : Array β} {i : Id kind} {b : β} :
    (entry table i : Attempt α β) = .ok b ↔ table[i.index]? = some b := by
  unfold entry
  split <;> rename_i h
  · simp [h]
  · simp [h, crash]

theorem yields_entry {kind : Kind} {table : Array β} {i : Id kind} (h : i.index < table.size) :
    (entry table i : Attempt α β).Yields fun b ↦ table[i.index]? = some b :=
  have hi := Array.getElem?_eq_getElem h
  ⟨table[i.index], entry_eq_ok_iff.2 hi, hi⟩

theorem ensures_entry {kind : Kind} {table : Array β} {i : Id kind} (h : i.index < table.size) :
    (entry table i : Attempt α β).Ensures fun b ↦ table[i.index]? = some b :=
  (yields_entry h).ensures

/-- An attempt that ends with a value or with a fault, and not with an error. -/
def NeverFails (x : Attempt α β) : Prop :=
  ∀ e : Error α, x ≠ fail e

theorem neverFails_ok (b : β) : NeverFails (.ok b : Attempt α β) :=
  nofun

theorem NeverFails.bind {γ : Type} {x : Attempt α β} {k : β → Attempt α γ} (h : x.NeverFails)
    (hk : ∀ b, (k b).NeverFails) : (x >>= k).NeverFails := by
  match x with
  | .ok b => exact hk b
  | .error (.error e) => exact absurd rfl (h e)
  | .error (.fault _) => exact nofun

theorem NeverFails.foldlM {γ : Type} {step : γ → β → Attempt α γ} {l : List β}
    (h : ∀ c, ∀ b ∈ l, (step c b).NeverFails) (c : γ) :
    (l.foldlM (m := Attempt α) step c).NeverFails := by
  induction l generalizing c with
  | nil => exact neverFails_ok c
  | cons b l ih =>
    rw [List.foldlM_cons]
    exact (h c b List.mem_cons_self).bind
      (ih fun c b hb ↦ h c b (List.mem_cons_of_mem _ hb))

theorem NeverFails.mapM {γ : Type} {g : β → Attempt α γ} {l : List β}
    (h : ∀ b ∈ l, (g b).NeverFails) : (l.mapM g).NeverFails := by
  induction l with
  | nil => exact neverFails_ok []
  | cons b l ih =>
    obtain ⟨hb, hl⟩ := List.forall_mem_cons.1 h
    rw [List.mapM_cons]
    exact hb.bind fun _ ↦ (ih hl).bind fun _ ↦ neverFails_ok _

/-- A table either has an entry or it has not. -/
theorem neverFails_entry {kind : Kind} (table : Array β) (i : Id kind) :
    (entry table i : Attempt α β).NeverFails := by
  unfold entry
  split <;> exact nofun

end Attempt

end NetOnChip
