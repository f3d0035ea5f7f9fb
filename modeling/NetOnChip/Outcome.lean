import NetOnChip.Failure

/-!
# Outcomes

An operation on a state that may fail leaves a state in either case. After an error that state is
part of what the operation promises: routing a flow again, for example, leaves the flow on its old
route if there is no new one. After a fault it means nothing.

Outcomes are chained by `andThen`, which stops at the first failure and keeps the state reached so
far.
-/

namespace NetOnChip

/-- The state that an operation leaves, with its value or the reason why there is none. -/
structure Outcome (σ α β : Type) where
  /-- The state afterwards. -/
  state : σ
  /-- The value or the failure. -/
  result : Attempt α β

namespace Outcome

variable {σ α β γ : Type}

/-- The outcome that goes on with another operation after a value, and stops after a failure. -/
def andThen (o : Outcome σ α β) (k : β → σ → Outcome σ α γ) : Outcome σ α γ :=
  match o.result with
  | .ok b => k b o.state
  | .error e => ⟨o.state, .error e⟩

/-- The outcome of a state change that may fail; a failure leaves the state as it was. -/
def ofAttempt (s : σ) : Attempt α (β × σ) → Outcome σ α β
  | .ok (b, s') => ⟨s', .ok b⟩
  | .error e => ⟨s, .error e⟩

/-- The outcome without its value. -/
def forget (o : Outcome σ α β) : Outcome σ α Unit :=
  ⟨o.state, o.result.map fun _ ↦ ()⟩

@[simp] theorem ok_andThen (s : σ) (b : β) (k : β → σ → Outcome σ α γ) :
    (⟨s, .ok b⟩ : Outcome σ α β).andThen k = k b s := rfl

@[simp] theorem error_andThen (s : σ) (e : Failure α) (k : β → σ → Outcome σ α γ) :
    (⟨s, .error e⟩ : Outcome σ α β).andThen k = ⟨s, .error e⟩ := rfl

@[simp] theorem andThen_ok (o : Outcome σ α β) : (o.andThen fun b s ↦ ⟨s, .ok b⟩) = o := by
  obtain ⟨s, e | b⟩ := o <;> rfl

theorem andThen_assoc {δ : Type} (o : Outcome σ α β) (k : β → σ → Outcome σ α γ)
    (k' : γ → σ → Outcome σ α δ) :
    (o.andThen k).andThen k' = o.andThen fun b s ↦ (k b s).andThen k' := by
  obtain ⟨s, b | e⟩ := o <;> rfl

/-- What comes next is only applied to the state that was reached. -/
theorem andThen_congr {o : Outcome σ α β} {k k' : β → σ → Outcome σ α γ}
    (h : ∀ b, k b o.state = k' b o.state) : o.andThen k = o.andThen k' := by
  obtain ⟨s, e | b⟩ := o
  · rfl
  · exact h b

/-- The state reached is that of the first or that of the second operation. -/
theorem state_andThen (P : σ → Prop) {o : Outcome σ α β} {k : β → σ → Outcome σ α γ}
    (h : P o.state) (hk : ∀ b, P (k b o.state).state) : P (o.andThen k).state := by
  obtain ⟨s, e | b⟩ := o
  · exact h
  · exact hk b

/-- The state after a state change that may fail is the old or the new one. -/
theorem state_ofAttempt (P : σ → Prop) {s : σ} (h : P s) {x : Attempt α (β × σ)}
    (hx : ∀ {b s'}, x = .ok (b, s') → P s') : P (ofAttempt s x).state := by
  cases x with
  | ok r => exact hx rfl
  | error e => exact h

/-- Outcomes with the same state and the same result are the same. -/
theorem ext {o o' : Outcome σ α β} (hstate : o.state = o'.state) (hresult : o.result = o'.result) :
    o = o' := by
  obtain ⟨s, x⟩ := o
  cases hstate
  cases hresult
  rfl

/-- A state change succeeds only if the attempt does. -/
theorem eq_ok_of_ofAttempt {s : σ} {x : Attempt α (β × σ)} {b : β}
    (h : (ofAttempt s x).result = .ok b) : x = .ok (b, (ofAttempt s x).state) := by
  cases x with
  | ok changed => exact congrArg (fun b ↦ Except.ok (b, changed.2)) (Except.ok.inj h)
  | error why => nomatch h

/-- Nothing succeeds that ends with a failure. -/
theorem andThen_error_ne_ok {o : Outcome σ α β} {why : Failure α} {c : γ} :
    (o.andThen fun _ s ↦ (⟨s, .error why⟩ : Outcome σ α γ)).result ≠ .ok c := by
  obtain ⟨s, _ | b⟩ := o <;> exact nofun

/-- A state change fails only if the attempt does. -/
theorem eq_fail_of_ofAttempt {s : σ} {x : Attempt α (β × σ)} {e : Error α}
    (h : (ofAttempt s x).result = Attempt.fail e) : x = Attempt.fail e := by
  cases x with
  | ok b => nomatch h
  | error why => exact congrArg Except.error (Except.error.inj h)

/-- A state change that cannot fail, and a failure after it. -/
theorem andThen_error_eq_fail {s : σ} {x : Attempt α (β × σ)} {e : Error α} (hx : x.NeverFails)
    {why : Failure α}
    (h : ((ofAttempt s x).andThen fun _ s ↦ (⟨s, .error why⟩ : Outcome σ α γ)).result =
      Attempt.fail e) :
    why = .error e ∧ ∃ b,
      x = .ok (b, ((ofAttempt s x).andThen fun _ s ↦ (⟨s, .error why⟩ : Outcome σ α γ)).state) := by
  cases x with
  | ok changed => exact ⟨Except.error.inj h, changed.1, rfl⟩
  | error why' => exact absurd (congrArg Except.error (Except.error.inj h)) (hx e)

/-! ### What outcomes keep -/

/-- An outcome keeps a relation to the state before it, unless it ends with a fault. -/
def Keeps (R : σ → σ → Prop) (s : σ) (o : Outcome σ α β) : Prop :=
  o.result.Proper → R s o.state

variable {R : σ → σ → Prop} {s : σ}

theorem proper_forget {o : Outcome σ α β} : o.forget.result.Proper ↔ o.result.Proper :=
  Attempt.proper_map

theorem Keeps.forget {o : Outcome σ α β} (h : o.Keeps R s) : o.forget.Keeps R s :=
  fun hp ↦ h (proper_forget.1 hp)

/-- A chain of operations ends with a fault if the first one does. -/
theorem proper_of_andThen {o : Outcome σ α β} {k : β → σ → Outcome σ α γ}
    (h : (o.andThen k).result.Proper) : o.result.Proper := by
  obtain ⟨s, e | b⟩ := o
  · exact fun f hf ↦ h f (congrArg Except.error (Except.error.inj hf))
  · exact Attempt.proper_ok b

/-- **Outcomes that keep a transitive relation keep it when they are chained.** -/
theorem Keeps.andThen (trans : ∀ {x y z : σ}, R x y → R y z → R x z) {o : Outcome σ α β}
    {k : β → σ → Outcome σ α γ} (h : o.Keeps R s) (hk : ∀ b, (k b o.state).Keeps R o.state) :
    (o.andThen k).Keeps R s := by
  intro hp
  have hfirst : R s o.state := h (proper_of_andThen hp)
  unfold Outcome.andThen at hp ⊢
  cases hr : o.result with
  | ok b =>
    simp only [hr] at hp ⊢
    exact trans hfirst (hk b hp)
  | error e => exact hfirst

/-- A state change that may fail keeps what it keeps if it succeeds. -/
theorem keeps_ofAttempt (refl : R s s) {x : Attempt α (β × σ)}
    (h : ∀ {b s'}, x = .ok (b, s') → R s s') : (ofAttempt s x).Keeps R s :=
  fun _ ↦ state_ofAttempt (R s) refl h

end Outcome

end NetOnChip
