import NetOnChip.Random.Chance

/-!
# Random computations that complete

The loops of a random computation *end* if none of them is given up (`Attempt.Ends`). A random
computation *completes* with a property if, whatever is drawn, it comes to a value with the property
as soon as its loops end (`Draw.Completes`): no error is possible then, and no other fault.

A source of random choices is *in range* if each of its choices completes with a value in the range
that was asked for (`Chance.InRange`); for some results it is enough that the numbers it answers are
(`Chance.Indexes`). How the choices are distributed or depend on each other is left open, so what is
proved of such sources holds of every sequence of choices.
-/

namespace NetOnChip

variable {σ α β γ : Type}

/-! ### Completing -/

namespace Attempt

variable {P Q : β → Prop} {x : Attempt α β}

/-- No loop was given up while what it drew was still rejected. -/
def Ends (x : Attempt α β) : Prop :=
  x ≠ crash .drawsExhausted

theorem ends_ok (b : β) : Ends (.ok b : Attempt α β) :=
  nofun

theorem not_ends_exhausted : ¬ Ends (crash .drawsExhausted : Attempt α β) :=
  fun h ↦ h rfl

theorem eq_ok_of_toOption {b : β} (h : x.toOption = some b) : x = .ok b := by
  match x with
  | .ok _ => exact congrArg _ (Option.some.inj h)
  | .error _ => cases h

theorem ends_error_iff {e : Failure α} :
    Ends (.error e : Attempt α β) ↔ e ≠ .fault .drawsExhausted :=
  not_congr ⟨Except.error.inj, congrArg _⟩

/-- Whether all loops ended can be read off the result. -/
instance decidableEnds : (x : Attempt α β) → Decidable x.Ends
  | .ok b => isTrue (ends_ok b)
  | .error (.error _) => isTrue nofun
  | .error (.fault f) => decidable_of_iff (f ≠ .drawsExhausted)
    (not_congr ⟨congrArg _, Failure.fault.inj⟩ |>.trans ends_error_iff.symm)

/-- If all loops of an attempt end, then so do those of its first step. -/
theorem Ends.of_bind {k : β → Attempt α γ} (h : (x >>= k).Ends) : x.Ends := by
  rintro rfl
  exact h rfl

/-- An attempt that comes to a value that satisfies a condition if its loops end. -/
def Completes (P : β → Prop) (x : Attempt α β) : Prop :=
  x.Ends → x.Yields P

theorem completes_ok {b : β} (h : P b) : Completes P (.ok b : Attempt α β) :=
  fun _ ↦ ⟨b, rfl, h⟩

theorem completes_exhausted : Completes P (crash .drawsExhausted : Attempt α β) :=
  fun h ↦ absurd h not_ends_exhausted

theorem Completes.of_eq_ok (h : x.Completes P) {b : β} (hx : x = .ok b) : P b := by
  subst hx
  obtain ⟨_, hb, hP⟩ := h (ends_ok b)
  exact Except.ok.inj hb ▸ hP

theorem Completes.mono (h : x.Completes P) (hPQ : ∀ b, P b → Q b) : x.Completes Q := by
  intro hends
  obtain ⟨b, hb, hP⟩ := h hends
  exact ⟨b, hb, hPQ b hP⟩

theorem Completes.bind {R : γ → Prop} {k : β → Attempt α γ} (h : x.Completes P)
    (hk : ∀ b, P b → (k b).Completes R) : (x >>= k).Completes R := by
  intro hends
  obtain ⟨b, rfl, hb⟩ := h hends.of_bind
  exact hk b hb hends

/-- What fails and completes was given up, so it completes with any other property as well. -/
theorem Completes.of_error {R : γ → Prop} {e : Failure α}
    (h : Completes P (.error e : Attempt α β)) : Completes R (.error e : Attempt α γ) := by
  intro hends
  obtain ⟨_, hb, -⟩ := h (ends_error_iff.2 (ends_error_iff.1 hends))
  cases hb

/-- It is known where a value comes from. -/
theorem Completes.self (h : x.Completes P) : x.Completes fun b ↦ x = .ok b ∧ P b :=
  fun hends ↦ (h hends).self

end Attempt

namespace Draw

variable {P Q : β → Prop} {m : Draw σ α β}

/-- A random computation goes on from the state that its first step left. -/
theorem bind_eq_of_eq_ok {k : β → Draw σ α γ} {s s' : σ} {b : β} (h : m s = .ok (b, s')) :
    (m >>= k) s = k b s' := by
  show (m s >>= fun r ↦ k r.1 r.2) = _
  rw [h]
  rfl

/-- An attempt that comes to a value draws nothing. -/
theorem lift_bind_of_eq_ok {x : Attempt α β} {k : β → Draw σ α γ} {b : β} (h : x = .ok b) (s : σ) :
    ((liftM x : Draw σ α β) >>= k) s = k b s := by
  subst h
  rfl

/-- An attempt that comes to no value ends a random computation. -/
theorem lift_bind_of_eq_error {x : Attempt α β} {k : β → Draw σ α γ} {e : Failure α}
    (h : x = .error e) (s : σ) : ((liftM x : Draw σ α β) >>= k) s = .error e := by
  subst h
  rfl

/-- A random computation that completes from every state of its source. -/
def Completes (P : β → Prop) (m : Draw σ α β) : Prop :=
  ∀ s, Attempt.Completes (fun r ↦ P r.1) (m s)

theorem completes_pure {b : β} (h : P b) : Completes P (pure b : Draw σ α β) :=
  fun _ ↦ Attempt.completes_ok h

/-- An attempt that succeeds may be part of a random computation. -/
theorem completes_lift {x : Attempt α β} (h : x.Yields P) : Completes P (liftM x : Draw σ α β) := by
  obtain ⟨b, rfl, hb⟩ := h
  exact fun _ ↦ Attempt.completes_ok hb

theorem completes_exhausted :
    Completes P (fun _ ↦ Attempt.crash .drawsExhausted : Draw σ α β) :=
  fun _ ↦ Attempt.completes_exhausted

theorem Completes.mono (h : Completes P m) (hPQ : ∀ b, P b → Q b) : Completes Q m :=
  fun s ↦ (h s).mono fun r ↦ hPQ r.1

/-- **What the first computation completes with is what the next one may rely on.** -/
theorem Completes.bind {R : γ → Prop} {k : β → Draw σ α γ} (h : Completes P m)
    (hk : ∀ b, P b → Completes R (k b)) : Completes R (m >>= k) :=
  fun s ↦ (h s).bind fun (b, s') hb ↦ hk b hb s'

end Draw

/-! ### Choices -/

/-- Every number that has to be below a bound is. -/
structure Chance.Indexes (chance : Chance σ α) : Prop where
  /-- A number that has to be below a bound is. -/
  below : ∀ {n : Nat}, 0 < n → Draw.Completes (· < n) (chance.below n)
  /-- So is one that comes from wider words. -/
  belowWide : ∀ {n : Nat}, 0 < n → Draw.Completes (· < n) (chance.belowWide n)

/-- Every choice of a source completes in the range that was asked for. -/
structure Chance.InRange [Scalar α] (chance : Chance σ α) : Prop where
  /-- A number that has to be below a bound is. -/
  below : ∀ {n : Nat}, 0 < n → Draw.Completes (· < n) (chance.below n)
  /-- So is one that comes from wider words. -/
  belowWide : ∀ {n : Nat}, 0 < n → Draw.Completes (· < n) (chance.belowWide n)
  /-- A scalar that has to be between two numbers is, if their distance is a number as well. -/
  between : ∀ {lo hi : α}, Scalar.isFinite lo = true → Scalar.isFinite hi = true →
    Scalar.isFinite (hi - lo) = true → lo < hi →
      Draw.Completes (fun a ↦ lo ≤ a ∧ a < hi) (chance.between lo hi)
  /-- A coin with a probability between zero and one shows one of its sides. -/
  coin : ∀ {probability : α}, 0 ≤ probability → probability ≤ 1 →
    Draw.Completes (fun _ ↦ True) (chance.coin probability)
  /-- A move that raises the cost is made or not. -/
  climb : ∀ change temperature : α,
    Draw.Completes (fun _ ↦ True) (chance.climb change temperature)

/-- Numbers are among the choices. -/
theorem Chance.InRange.indexes [Scalar α] {chance : Chance σ α} (hc : chance.InRange) :
    chance.Indexes :=
  ⟨hc.below, hc.belowWide⟩

end NetOnChip
