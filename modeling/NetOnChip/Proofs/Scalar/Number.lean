import Mathlib.Algebra.BigOperators.Group.Finset.Basic
import Mathlib.Algebra.Order.Field.Rat
import Mathlib.Tactic.Linarith
import NetOnChip.Scalar.Exact

/-!
# Calculating with exact numbers

Sums, differences and products of numbers are numbers, and on numbers the laws of arithmetic hold.
In particular a sum of numbers can be brought up to date by adding the differences of the terms that
changed, each of them once (`foldl_add_eq_add_changes`).

What is not a number comes into comparisons only: a tolerance may be infinite, and an infinite
tolerance times zero is undefined, but neither is below zero (`not_mul_lt_zero`). Sums, and products
with a factor that is not negative, never come out in the wrong order (`not_add_lt_add`,
`not_mul_lt_mul`). In the order by which candidates are sorted every exact scalar has a place
(`order_eq_compareLex`).
-/

namespace NetOnChip

namespace Exact

variable {a b : Exact}

/-! ### Numbers -/

theorem isNumber_iff : a.isNumber = true ↔ ∃ q, a = number q := by
  cases a <;> simp [isNumber]

@[simp] theorem isNumber_number (q : Rat) : (number q).isNumber = true := rfl

theorem isNumber_add (ha : a.isNumber) (hb : b.isNumber) : (a + b).isNumber := by
  obtain ⟨x, rfl⟩ := isNumber_iff.1 ha
  obtain ⟨y, rfl⟩ := isNumber_iff.1 hb
  exact isNumber_number (x + y)

theorem isNumber_sub (ha : a.isNumber) (hb : b.isNumber) : (a - b).isNumber := by
  obtain ⟨x, rfl⟩ := isNumber_iff.1 ha
  obtain ⟨y, rfl⟩ := isNumber_iff.1 hb
  exact isNumber_number (x - y)

theorem isNumber_mul (ha : a.isNumber) (hb : b.isNumber) : (a * b).isNumber := by
  obtain ⟨x, rfl⟩ := isNumber_iff.1 ha
  obtain ⟨y, rfl⟩ := isNumber_iff.1 hb
  exact isNumber_number (x * y)

/-- What holds of two scalars holds of the larger one. -/
theorem larger_of_both {P : Exact → Prop} (ha : P a) (hb : P b) : P (Scalar.larger a b) := by
  show P (larger a b)
  unfold larger
  split_ifs <;> assumption

/-- The rational number that an exact scalar is, if it is one. -/
def toRat : Exact → Rat
  | number q => q
  | infinite _ | undefined => 0

theorem number_toRat (h : a.isNumber) : number a.toRat = a := by
  obtain ⟨q, rfl⟩ := isNumber_iff.1 h
  rfl

theorem sub_self_of_isNumber (h : a.isNumber) : a - a = 0 := by
  obtain ⟨q, rfl⟩ := isNumber_iff.1 h
  simp

/-- What was added to a number is what is left when the number is taken off again. -/
theorem eq_sub_of_eq_add {c : Exact} (ha : a.isNumber) (hc : c.isNumber) (h : c = a + b) :
    b = c - a := by
  obtain ⟨x, rfl⟩ := isNumber_iff.1 ha
  subst h
  cases b with
  | number y => simp
  | infinite s => cases hc
  | undefined => cases hc

/-! ### Sums -/

theorem foldl_add_eq {l : List Exact} (h : ∀ a ∈ l, a.isNumber) (q : Rat) :
    l.foldl (· + ·) (number q) = number (q + (l.map toRat).sum) := by
  induction l generalizing q with
  | nil => simp
  | cons a l ih =>
    obtain ⟨ha, hl⟩ := List.forall_mem_cons.1 h
    obtain ⟨x, rfl⟩ := isNumber_iff.1 ha
    rw [List.foldl_cons, number_add_number, ih hl, List.map_cons, List.sum_cons, add_assoc]
    rfl

theorem isNumber_foldl_add {l : List Exact} (h : ∀ a ∈ l, a.isNumber) :
    (l.foldl (· + ·) 0).isNumber := by
  rw [zero_eq_number, foldl_add_eq h]
  rfl

section Changes

variable {ι : Type} [DecidableEq ι] {items changed : List ι}

/-- A sum changes by the differences of the terms that changed. -/
theorem sum_eq_add_changes (new old : ι → ℚ) (hitems : items.Nodup) (hchanged : changed.Nodup)
    (hsubset : changed ⊆ items) (hsame : ∀ i ∈ items, i ∉ changed → new i = old i) :
    (items.map new).sum = (items.map old).sum + (changed.map fun i ↦ new i - old i).sum := by
  -- the terms that did not change have a difference of zero, so they may be added as well
  have hall : ∑ i ∈ changed.toFinset, (new i - old i) = ∑ i ∈ items.toFinset, (new i - old i) := by
    refine Finset.sum_subset (fun i hi ↦ ?_) fun i hi hout ↦ ?_
    · exact List.mem_toFinset.2 (hsubset (List.mem_toFinset.1 hi))
    · rw [hsame i (List.mem_toFinset.1 hi) fun h ↦ hout (List.mem_toFinset.2 h), sub_self]
  rw [← List.sum_toFinset new hitems, ← List.sum_toFinset old hitems,
    ← List.sum_toFinset _ hchanged, hall, Finset.sum_sub_distrib]
  linarith

/-- **A sum of numbers is brought up to date** by the differences of the terms that changed. -/
theorem foldl_add_eq_add_changes {new old : ι → Exact} (hitems : items.Nodup)
    (hchanged : changed.Nodup) (hsubset : changed ⊆ items)
    (hnew : ∀ i ∈ items, (new i).isNumber) (hold : ∀ i ∈ items, (old i).isNumber)
    (hsame : ∀ i ∈ items, i ∉ changed → new i = old i) :
    (items.map new).foldl (· + ·) 0 =
      (items.map old).foldl (· + ·) 0 + (changed.map fun i ↦ new i - old i).foldl (· + ·) 0 := by
  have hdiff : ∀ i ∈ changed, new i - old i = number ((new i).toRat - (old i).toRat) := by
    intro i hi
    rw [← number_sub_number, number_toRat (hnew i (hsubset hi)), number_toRat (hold i (hsubset hi))]
  have hsum := sum_eq_add_changes (toRat ∘ new) (toRat ∘ old) hitems hchanged hsubset
    fun i hi hout ↦ congrArg toRat (hsame i hi hout)
  rw [List.map_congr_left hdiff, zero_eq_number, foldl_add_eq (List.forall_mem_map.2 hnew),
    foldl_add_eq (List.forall_mem_map.2 hold), foldl_add_eq (List.forall_mem_map.2 fun _ _ ↦ rfl)]
  simp only [List.map_map, zero_add, number_add_number, hsum]
  rfl

end Changes

/-! ### Clamping -/

/-- A number that is clamped may serve as a probability. -/
theorem clamp_mem (h : a.isNumber) : 0 ≤ Scalar.clamp 0 1 a ∧ Scalar.clamp 0 1 a ≤ 1 := by
  obtain ⟨q, rfl⟩ := isNumber_iff.1 h
  simp only [Scalar.clamp, zero_eq_number, one_eq_number, number_lt_number]
  split_ifs with hlow hhigh
  · exact ⟨number_le_number.2 le_rfl, number_le_number.2 zero_le_one⟩
  · exact ⟨number_le_number.2 zero_le_one, number_le_number.2 le_rfl⟩
  · exact ⟨number_le_number.2 (not_lt.1 hlow), number_le_number.2 (not_lt.1 hhigh)⟩

/-- What lies between two numbers is a number. -/
theorem isNumber_of_between {lo hi : Exact} (hlo : lo.isNumber) (hhi : hi.isNumber) (hle : lo ≤ a)
    (hlt : a < hi) : a.isNumber := by
  obtain ⟨x, rfl⟩ := isNumber_iff.1 hlo
  obtain ⟨y, rfl⟩ := isNumber_iff.1 hhi
  match a with
  | number _ => rfl
  | infinite false => cases hlt
  | infinite true => cases hle
  | undefined => cases hle

/-! ### Comparisons with zero -/

theorem zero_le_iff : 0 ≤ a ↔ a = infinite false ∨ ∃ q, 0 ≤ q ∧ a = number q := by
  match a with
  | number q => simp
  | infinite false => exact iff_of_true rfl (.inl rfl)
  | infinite true => exact iff_of_false (fun h ↦ nomatch h) (by simp)
  | undefined => exact iff_of_false (fun h ↦ nomatch h) (by simp)

theorem lt_of_neg_of_pos (ha : a < 0) (hb : 0 < b) : a < b := by
  match a, b with
  | number x, number y => exact number_lt_number.2 <|
      (number_lt_number.1 ha).trans (number_lt_number.1 hb)
  | number _, infinite false | infinite true, number _ | infinite true, infinite false => rfl
  | infinite false, _ | undefined, _ => cases ha
  | number _, infinite true | infinite true, infinite true => cases hb
  | number _, undefined | infinite true, undefined => cases hb

/-- A number that is not negative, taken an infinite number of times. -/
theorem infinity_mul_number {q : Rat} (hq : 0 ≤ q) :
    infinite false * number q = undefined ∨ infinite false * number q = infinite false := by
  show (if q = 0 then undefined else infinite (false != decide (q < 0))) = _ ∨
    (if q = 0 then undefined else infinite (false != decide (q < 0))) = _
  rw [decide_eq_false (not_lt.2 hq)]
  by_cases h : q = 0 <;> simp [h]

theorem not_mul_lt_zero (ha : 0 ≤ a) (hb : 0 ≤ b) : ¬ a * b < 0 := by
  have hinfinity : ∀ q : Rat, 0 ≤ q → ¬ infinite false * number q < 0 := by
    intro q hq
    rcases infinity_mul_number hq with h | h <;> rw [h] <;> decide
  rcases zero_le_iff.1 ha with rfl | ⟨x, hx, rfl⟩ <;>
    rcases zero_le_iff.1 hb with rfl | ⟨y, hy, rfl⟩
  · decide
  · exact hinfinity y hy
  · have hcomm : number x * infinite false = infinite false * number x := rfl
    rw [hcomm]
    exact hinfinity x hx
  · rw [number_mul_number, zero_eq_number, number_lt_number]
    exact not_lt.2 (mul_nonneg hx hy)

theorem zero_le_magnitude (h : a.isNumber) : 0 ≤ Scalar.magnitude a := by
  obtain ⟨q, rfl⟩ := isNumber_iff.1 h
  show number 0 ≤ number (if q < 0 then -q else q)
  rw [number_le_number]
  split_ifs <;> linarith

/-! ### Sums and products in order -/

/-- A scalar that is undefined, or beyond all numbers: below them if the sign is set. -/
def Extreme (s : Bool) (a : Exact) : Prop :=
  a = undefined ∨ a = infinite s

/-- Two scalars are not in the wrong order exactly if one of them is extreme on its side, or if they
are numbers in their order. -/
theorem not_lt_iff : ¬ b < a ↔
    a.Extreme true ∨ b.Extreme false ∨ ∃ x y, a = number x ∧ b = number y ∧ x ≤ y := by
  match a, b with
  | number x, number y => simp [Extreme]
  | undefined, b => exact iff_of_true (by cases b <;> exact Bool.false_ne_true) (.inl (.inl rfl))
  | number _, undefined | infinite _, undefined =>
    exact iff_of_true Bool.false_ne_true (.inr (.inl (.inl rfl)))
  | infinite true, number _ | infinite true, infinite true | infinite true, infinite false =>
    exact iff_of_true Bool.false_ne_true (.inl (.inr rfl))
  | number _, infinite false | infinite false, infinite false =>
    exact iff_of_true Bool.false_ne_true (.inr (.inl (.inr rfl)))
  | infinite false, number _ | number _, infinite true | infinite false, infinite true =>
    exact iff_of_false (not_not.2 rfl) (by simp [Extreme])

theorem add_comm (a b : Exact) : a + b = b + a := by
  match a, b with
  | number x, number y => rw [number_add_number, number_add_number, Rat.add_comm]
  | infinite s, infinite t => cases s <;> cases t <;> rfl
  | number _, infinite _ | infinite _, number _ => rfl
  | undefined, undefined | undefined, number _ | undefined, infinite _ => rfl
  | number _, undefined | infinite _, undefined => rfl

theorem mul_comm (a b : Exact) : a * b = b * a := by
  match a, b with
  | number x, number y => rw [number_mul_number, number_mul_number, Rat.mul_comm]
  | infinite s, infinite t => cases s <;> cases t <;> rfl
  | number _, infinite _ | infinite _, number _ => rfl
  | undefined, undefined | undefined, number _ | undefined, infinite _ => rfl
  | number _, undefined | infinite _, undefined => rfl

theorem Extreme.add {s : Bool} (h : a.Extreme s) (b : Exact) : (a + b).Extreme s := by
  rcases h with rfl | rfl
  · exact .inl rfl
  · match b with
    | number _ => exact .inr rfl
    | undefined => exact .inl rfl
    | infinite t =>
      show (if s = t then infinite s else undefined).Extreme s
      split_ifs
      · exact .inr rfl
      · exact .inl rfl

/-- **Sums keep the order.** -/
theorem not_add_lt_add {c d : Exact} (hab : ¬ b < a) (hcd : ¬ d < c) : ¬ b + d < a + c := by
  rw [not_lt_iff] at *
  rcases hab with ha | hb | ⟨x, y, rfl, rfl, hxy⟩
  · exact .inl (ha.add c)
  · exact .inr (.inl (hb.add d))
  · rcases hcd with hc | hd | ⟨z, w, rfl, rfl, hzw⟩
    · exact .inl (add_comm .. ▸ hc.add _)
    · exact .inr (.inl (add_comm .. ▸ hd.add _))
    · exact .inr (.inr ⟨_, _, rfl, rfl, add_le_add hxy hzw⟩)

theorem Extreme.mul {s : Bool} (h : a.Extreme s) (hb : 0 ≤ b) : (a * b).Extreme s := by
  rcases h with rfl | rfl
  · exact .inl rfl
  · rcases zero_le_iff.1 hb with rfl | ⟨q, hq, rfl⟩
    · cases s <;> exact .inr rfl
    · show (if q = 0 then undefined else infinite (s != decide (q < 0))).Extreme s
      rw [decide_eq_false (not_lt.2 hq), Bool.bne_false]
      split_ifs
      · exact .inl rfl
      · exact .inr rfl

/-- A number that is not positive, taken an infinite number of times. -/
theorem extreme_number_mul_infinity {x : Rat} (hx : x ≤ 0) :
    (number x * infinite false).Extreme true := by
  show (if x = 0 then undefined else infinite (false != decide (x < 0))).Extreme true
  split_ifs with h
  · exact .inl rfl
  · rw [decide_eq_true (lt_of_le_of_ne hx h)]
    exact .inr rfl

/-- **Products with a factor that is not negative keep the order.** -/
theorem not_mul_lt_mul {c : Exact} (h : ¬ b < a) (hc : 0 ≤ c) : ¬ b * c < a * c := by
  rw [not_lt_iff] at *
  rcases h with ha | hb | ⟨x, y, rfl, rfl, hxy⟩
  · exact .inl (ha.mul hc)
  · exact .inr (.inl (hb.mul hc))
  · rcases zero_le_iff.1 hc with rfl | ⟨q, hq, rfl⟩
    · rcases le_total x 0 with hx | hx
      · exact .inl (extreme_number_mul_infinity hx)
      · exact .inr (.inl (infinity_mul_number (hx.trans hxy)))
    · exact .inr (.inr ⟨_, _, rfl, rfl, mul_le_mul_of_nonneg_right hxy hq⟩)

/-- Dividing by a positive number keeps the side of zero. -/
theorem not_div_lt_zero {k : ℚ} (h : ¬ a < 0) (hk : 0 < k) : ¬ a / number k < 0 := by
  match a with
  | number q =>
    rw [zero_eq_number, number_lt_number, not_lt] at h
    show ¬ (if k = 0 then _ else number (q / k)) < number 0
    rw [if_neg hk.ne', number_lt_number, not_lt]
    exact div_nonneg h hk.le
  | infinite false =>
    show ¬ infinite (false != decide (k < 0)) < 0
    rw [decide_eq_false (not_lt.2 hk.le)]
    exact Bool.false_ne_true
  | infinite true => exact absurd rfl h
  | undefined => exact Bool.false_ne_true

/-! ### Order -/

/-- Where a scalar comes in the order: infinity with a sign, numbers, infinity, and last what is
undefined. -/
def place : Exact → Nat
  | infinite true => 0
  | number _ => 1
  | infinite false => 2
  | undefined => 3

theorem number_order_number (x y : Rat) : Scalar.order (number x) (number y) = compare x y := by
  show (if decide (x < y) then _ else if decide (y < x) then _ else _) = _
  simp only [decide_eq_true_eq]
  rcases lt_trichotomy x y with h | rfl | h
  · rw [if_pos h, compare_lt_iff_lt.2 h]
  · simp
  · rw [if_neg h.asymm, if_pos h, compare_gt_iff_gt.2 h]

theorem order_eq_compareLex :
    (Scalar.order : Exact → Exact → Ordering) = compareLex (compareOn place) (compareOn toRat) := by
  funext a b
  match a, b with
  | number x, number y => exact number_order_number x y
  | infinite true, infinite true | infinite false, infinite false | undefined, undefined => rfl
  | infinite true, infinite false | infinite false, infinite true => rfl
  | number _, infinite true | number _, infinite false | number _, undefined => rfl
  | infinite true, number _ | infinite false, number _ | undefined, number _ => rfl
  | undefined, infinite true | undefined, infinite false => rfl
  | infinite true, undefined | infinite false, undefined => rfl

/-- All exact scalars are ordered, also those that are not numbers. -/
instance : Std.TransCmp (Scalar.order : Exact → Exact → Ordering) :=
  order_eq_compareLex ▸ inferInstance

end Exact

end NetOnChip
