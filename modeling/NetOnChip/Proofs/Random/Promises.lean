import NetOnChip.Anneal.Run
import NetOnChip.Proofs.Random.Completes

/-!
# What computations promise

A computation *promises* a property if every value that it may come to has the property
(`Draw.Promises`, `Journal.Promises`). It need not come to a value at all. So in contrast to
completing, a promise needs no assumption about what a computation starts from, and whatever comes
to a value promises something (`promises_true`).
-/

namespace NetOnChip

variable {σ α β γ : Type} {P Q : β → Prop}

/-! ### Random computations -/

namespace Draw

variable {m : Draw σ α β}

/-- A random computation that only comes to values with a property. -/
def Promises (P : β → Prop) (m : Draw σ α β) : Prop :=
  ∀ s b s', m s = .ok (b, s') → P b

theorem promises_true : Promises (fun _ ↦ True) m :=
  fun _ _ _ _ ↦ trivial

theorem promises_pure {b : β} (h : P b) : Promises P (pure b : Draw σ α β) := by
  rintro s b' s' ⟨⟩
  exact h

/-- What is known of the value of an attempt is known of it within a random computation. -/
theorem promises_lift {x : Attempt α β} (h : ∀ b, x = .ok b → P b) :
    Promises P (liftM x : Draw σ α β) := by
  intro s b s' hb
  obtain ⟨b', hx, hb'⟩ := Attempt.bind_eq_ok_iff.1 hb
  cases hb'
  exact h b hx

theorem Promises.mono (h : Promises P m) (hPQ : ∀ b, P b → Q b) : Promises Q m :=
  fun s b s' hb ↦ hPQ b (h s b s' hb)

theorem Promises.and (h : Promises P m) (h' : Promises Q m) : Promises (fun b ↦ P b ∧ Q b) m :=
  fun s b s' hb ↦ ⟨h s b s' hb, h' s b s' hb⟩

/-- **What the first computation promises is what the next one may rely on.** -/
theorem Promises.bind {R : γ → Prop} {k : β → Draw σ α γ} (h : Promises P m)
    (hk : ∀ b, P b → Promises R (k b)) : Promises R (m >>= k) := by
  intro s c s' hc
  obtain ⟨⟨b, s₁⟩, hb, hc⟩ := Attempt.bind_eq_ok_iff.1 hc
  exact hk b (h s b s₁ hb) s₁ c s' hc

/-- The first computation may promise nothing. -/
theorem promises_bind {R : γ → Prop} {k : β → Draw σ α γ} (hk : ∀ b, Promises R (k b)) :
    Promises R (m >>= k) :=
  promises_true.bind fun b _ ↦ hk b

/-- If the first computation comes to no value, then there is none in the end. -/
theorem Promises.none_bind {R : γ → Prop} {k : β → Draw σ α γ} (h : Promises (fun _ ↦ False) m) :
    Promises R (m >>= k) :=
  h.bind fun _ ↦ False.elim

theorem Completes.promises (h : Completes P m) : Promises P m :=
  fun s _ _ hb ↦ (h s).of_eq_ok hb

end Draw

/-! ### Computations with a journal -/

namespace Journal

variable {m : Journal α β}

/-- A computation that only comes to values with a property, whatever is in the journal before. -/
def Promises (P : β → Prop) (m : Journal α β) : Prop :=
  ∀ events b, (m events).1 = .ok b → P b

theorem promises_true : Promises (fun _ ↦ True) m :=
  fun _ _ _ ↦ trivial

theorem promises_pure {b : β} (h : P b) : Promises P (pure b : Journal α β) := by
  rintro events b' ⟨⟩
  exact h

/-- It is known where a value comes from. -/
theorem promises_self : Promises (fun b ↦ ∃ events, (m events).1 = .ok b) m :=
  fun events _ hb ↦ ⟨events, hb⟩

/-- The value of an attempt is known. -/
theorem promises_ofAttempt {x : Attempt α β} : Promises (x = .ok ·) (ofAttempt x) :=
  fun _ _ ↦ id

theorem Promises.mono (h : Promises P m) (hPQ : ∀ b, P b → Q b) : Promises Q m :=
  fun events b hb ↦ hPQ b (h events b hb)

theorem Promises.bind {R : γ → Prop} {k : β → Journal α γ} (h : Promises P m)
    (hk : ∀ b, P b → Promises R (k b)) : Promises R (m >>= k) := by
  intro events c hc
  change (ExceptT.bindCont k (m events).1 (m events).2).1 = .ok c at hc
  cases hb : (m events).1 with
  | ok b =>
    rw [hb] at hc
    exact hk b (h events b hb) (m events).2 c hc
  | error e =>
    rw [hb] at hc
    cases hc

/-- The first computation may promise nothing. -/
theorem promises_bind {R : γ → Prop} {k : β → Journal α γ} (hk : ∀ b, Promises R (k b)) :
    Promises R (m >>= k) :=
  promises_true.bind fun b _ ↦ hk b

end Journal

end NetOnChip
