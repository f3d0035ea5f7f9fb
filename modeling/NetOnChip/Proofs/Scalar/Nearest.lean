import Mathlib.Algebra.Order.Field.Power
import Mathlib.Algebra.Order.Floor.Ring
import Mathlib.Data.Int.Log
import Mathlib.Data.Rat.Floor
import Mathlib.Tactic.Linarith
import Mathlib.Tactic.NormNum
import Mathlib.Tactic.Positivity
import Mathlib.Tactic.Ring
import NetOnChip.Proofs.Scalar.Number

/-!
# Rounding to the nearest double

A number is rounded to a multiple of the step between the doubles around it (`rounded`), to the even
multiple if two are equally near. The step is a power of two. It grows with the magnitude of the
number, from the smallest positive double on, so that 53 bits are left.

Rounding never exchanges two numbers (`rounded_mono`): within a binade because rounding to an
integer does not, and from one binade to the next because the power of two between them is a double
itself. A rounded number past the largest double becomes infinite (`Exact.nearest`).
-/

namespace NetOnChip

/-! ### Rounding to an integer -/

/-- The nearest integer, and of two equally near ones the even one. -/
def halfEven (q : ℚ) : ℤ :=
  if q - ⌊q⌋ < 1 / 2 then ⌊q⌋
  else if 1 / 2 < q - ⌊q⌋ then ⌊q⌋ + 1
  else ⌊q⌋ + ⌊q⌋ % 2

@[simp] theorem halfEven_intCast (k : ℤ) : halfEven k = k := by
  simp [halfEven]

theorem floor_le_halfEven (q : ℚ) : ⌊q⌋ ≤ halfEven q := by
  unfold halfEven
  split_ifs <;> omega

theorem halfEven_le_floor_add_one (q : ℚ) : halfEven q ≤ ⌊q⌋ + 1 := by
  unfold halfEven
  split_ifs <;> omega

/-- **Rounding to an integer** keeps the order. -/
theorem halfEven_mono {p q : ℚ} (h : p ≤ q) : halfEven p ≤ halfEven q := by
  rcases (Int.floor_mono h).lt_or_eq with hlt | heq
  · calc
      halfEven p ≤ ⌊p⌋ + 1 := halfEven_le_floor_add_one p
      _ ≤ ⌊q⌋ := hlt
      _ ≤ halfEven q := floor_le_halfEven q
  · -- between two integers only the distance from the lower one counts
    unfold halfEven
    rw [heq]
    split_ifs <;> first | omega | (exfalso; linarith)

theorem halfEven_le {q : ℚ} {k : ℤ} (h : q ≤ k) : halfEven q ≤ k :=
  halfEven_intCast k ▸ halfEven_mono h

theorem le_halfEven {q : ℚ} {k : ℤ} (h : k ≤ q) : k ≤ halfEven q :=
  halfEven_intCast k ▸ halfEven_mono h

theorem halfEven_neg (q : ℚ) : halfEven (-q) = -halfEven q := by
  rcases eq_or_ne q ⌊q⌋ with hint | hfrac
  · rw [hint, ← Int.cast_neg, halfEven_intCast, halfEven_intCast]
  · have hlo : (⌊q⌋ : ℚ) < q := lt_of_le_of_ne (Int.floor_le q) hfrac.symm
    have hhi := Int.lt_floor_add_one q
    have hfloor : ⌊-q⌋ = -⌊q⌋ - 1 := by
      rw [Int.floor_eq_iff]
      push_cast
      constructor <;> linarith
    unfold halfEven
    rw [hfloor]
    push_cast
    split_ifs <;> first | omega | (exfalso; linarith)

/-! ### Rounding to a double -/

/-- The exponent of the step between the doubles around a number. -/
def stepExponent (q : ℚ) : ℤ :=
  max (Int.log 2 |q| - 52) (-1074)

theorem le_stepExponent (q : ℚ) : -1074 ≤ stepExponent q :=
  le_max_right ..

/-- The number that a double is rounded to, if there is no bound to what doubles can be. -/
def rounded (q : ℚ) : ℚ :=
  halfEven (q / 2 ^ stepExponent q) * 2 ^ stepExponent q

theorem two_pow_mul_zpow (n : ℕ) (e : ℤ) : (2 : ℚ) ^ n * 2 ^ e = 2 ^ (n + e) := by
  rw [zpow_add₀ two_ne_zero, zpow_natCast]

theorem stepExponent_neg (q : ℚ) : stepExponent (-q) = stepExponent q := by
  rw [stepExponent, abs_neg, stepExponent]

theorem rounded_neg (q : ℚ) : rounded (-q) = -rounded q := by
  rw [rounded, stepExponent_neg, neg_div, halfEven_neg, rounded]
  push_cast
  ring

@[simp] theorem rounded_zero : rounded 0 = 0 := by
  simp [rounded, halfEven]

theorem rounded_nonneg {q : ℚ} (h : 0 ≤ q) : 0 ≤ rounded q := by
  have hscaled : 0 ≤ halfEven (q / 2 ^ stepExponent q) := le_halfEven (by push_cast; positivity)
  unfold rounded
  positivity

/-- A number takes at most 53 bits in steps of the doubles around it. -/
theorem div_step_lt {q : ℚ} (h : 0 < q) : q / 2 ^ stepExponent q < 2 ^ 53 := by
  rw [div_lt_iff₀ (by positivity), two_pow_mul_zpow]
  calc
    q < 2 ^ (Int.log 2 q + 1) := Int.lt_zpow_succ_log_self (by norm_num) q
    _ ≤ 2 ^ (((53 : ℕ) : ℤ) + stepExponent q) := by
      refine zpow_le_zpow_right₀ one_le_two ?_
      rw [stepExponent, abs_of_pos h]
      push_cast
      omega

/-- Above the smallest step it takes all of them. -/
theorem le_div_step {q : ℚ} (h : 0 < q) (hstep : stepExponent q ≠ -1074) :
    2 ^ 52 ≤ q / 2 ^ stepExponent q := by
  rw [le_div_iff₀ (by positivity), two_pow_mul_zpow]
  calc
    (2 : ℚ) ^ (((52 : ℕ) : ℤ) + stepExponent q) ≤ 2 ^ Int.log 2 q := by
      refine zpow_le_zpow_right₀ one_le_two ?_
      rw [stepExponent, abs_of_pos h] at hstep ⊢
      push_cast
      omega
    _ ≤ q := Int.zpow_log_le_self (by norm_num) h

theorem rounded_mono_of_pos {p q : ℚ} (hp : 0 < p) (h : p ≤ q) : rounded p ≤ rounded q := by
  have hq := hp.trans_le h
  have hstep : stepExponent p ≤ stepExponent q := by
    rw [stepExponent, stepExponent, abs_of_pos hp, abs_of_pos hq]
    have := Int.log_mono_right (b := 2) hp h
    omega
  rcases hstep.lt_or_eq with hlt | heq
  · -- the lower bound of the larger number's binade lies between the two
    have hne : stepExponent q ≠ -1074 := by
      unfold stepExponent at hlt ⊢
      omega
    have hle : halfEven (p / 2 ^ stepExponent p) ≤ 2 ^ 53 :=
      halfEven_le (by push_cast; exact (div_step_lt hp).le)
    have hge : 2 ^ 52 ≤ halfEven (q / 2 ^ stepExponent q) :=
      le_halfEven (by push_cast; exact le_div_step hq hne)
    calc
      rounded p ≤ ((2 ^ 53 : ℤ) : ℚ) * 2 ^ stepExponent p := by
        unfold rounded
        gcongr
      _ = 2 ^ ((53 : ℤ) + stepExponent p) := by
        push_cast
        exact two_pow_mul_zpow 53 _
      _ ≤ 2 ^ ((52 : ℤ) + stepExponent q) := zpow_le_zpow_right₀ one_le_two (by omega)
      _ = ((2 ^ 52 : ℤ) : ℚ) * 2 ^ stepExponent q := by
        push_cast
        exact (two_pow_mul_zpow 52 _).symm
      _ ≤ rounded q := by
        unfold rounded
        gcongr
  · unfold rounded
    rw [heq]
    have := halfEven_mono (div_le_div_of_nonneg_right h (by positivity :
      (0 : ℚ) ≤ 2 ^ stepExponent q))
    gcongr

/-- **Rounding keeps the order.** -/
theorem rounded_mono {p q : ℚ} (h : p ≤ q) : rounded p ≤ rounded q := by
  rcases lt_or_ge 0 p with hp | hp
  · exact rounded_mono_of_pos hp h
  · have hneg := rounded_nonneg (neg_nonneg.2 hp)
    rw [rounded_neg, neg_nonneg] at hneg
    rcases lt_or_ge q 0 with hq | hq
    · have := rounded_mono_of_pos (neg_pos.2 hq) (neg_le_neg h)
      rw [rounded_neg, rounded_neg] at this
      linarith
    · exact hneg.trans (rounded_nonneg hq)

/-- A multiple of the step around it is not rounded. -/
theorem rounded_eq_self {k : ℤ} {e : ℤ} (h : stepExponent (k * 2 ^ e) = e) :
    rounded (k * 2 ^ e) = k * 2 ^ e := by
  rw [rounded, h, mul_div_cancel_right₀ _ (by positivity), halfEven_intCast]

/-- What is not smaller than the smallest positive double is not rounded to zero. -/
theorem rounded_pos {q : ℚ} (h : 2 ^ (-1074 : ℤ) ≤ q) : 0 < rounded q := by
  have hpos : (0 : ℚ) < 2 ^ (-1074 : ℤ) := zpow_pos two_pos _
  have hlog : Int.log 2 ((2 : ℚ) ^ (-1074 : ℤ)) = -1074 :=
    Int.log_zpow (R := ℚ) (b := 2) (by norm_num) (-1074)
  have hstep : stepExponent ((1 : ℤ) * 2 ^ (-1074 : ℤ)) = -1074 := by
    rw [Int.cast_one, one_mul, stepExponent, abs_of_pos hpos, hlog]
    rfl
  calc
    (0 : ℚ) < (1 : ℤ) * 2 ^ (-1074 : ℤ) := by rw [Int.cast_one, one_mul]; exact hpos
    _ = rounded ((1 : ℤ) * 2 ^ (-1074 : ℤ)) := (rounded_eq_self hstep).symm
    _ ≤ rounded q := rounded_mono (by rwa [Int.cast_one, one_mul])

/-! ### Infinities -/

/-- The power of two that is too large for a double. -/
def doubleLimit : ℚ :=
  2 ^ (1024 : ℤ)

namespace Exact

/-- The double that is nearest to an exact scalar. A number that is rounded to one without a double
becomes infinite. -/
def nearest : Exact → Exact
  | number q =>
    if |rounded q| < doubleLimit then number (rounded q) else infinite (decide (q < 0))
  | infinite s => infinite s
  | undefined => undefined

variable {a b : Exact}

theorem Extreme.nearest {s : Bool} (h : a.Extreme s) : a.nearest.Extreme s := by
  rcases h with rfl | rfl
  · exact .inl rfl
  · exact .inr rfl

theorem nearest_number_cases (q : ℚ) :
    (|rounded q| < doubleLimit ∧ (number q).nearest = number (rounded q)) ∨
      (rounded q ≤ -doubleLimit ∧ (number q).nearest = infinite true) ∨
      (doubleLimit ≤ rounded q ∧ (number q).nearest = infinite false) := by
  by_cases hlarge : |rounded q| < doubleLimit
  · exact .inl ⟨hlarge, if_pos hlarge⟩
  · have hinf : (number q).nearest = infinite (decide (q < 0)) := if_neg hlarge
    rw [not_lt] at hlarge
    rcases lt_or_ge q 0 with hq | hq
    · have hneg : rounded q ≤ 0 := rounded_zero ▸ rounded_mono hq.le
      rw [abs_of_nonpos hneg] at hlarge
      exact .inr (.inl ⟨by linarith, by rw [hinf, decide_eq_true hq]⟩)
    · rw [abs_of_nonneg (rounded_nonneg hq)] at hlarge
      exact .inr (.inr ⟨hlarge, by rw [hinf, decide_eq_false (not_lt.2 hq)]⟩)

/-- **Rounding to doubles keeps the order.** -/
theorem not_nearest_lt_nearest (h : ¬ b < a) : ¬ b.nearest < a.nearest := by
  rw [not_lt_iff] at h ⊢
  rcases h with ha | hb | ⟨x, y, rfl, rfl, hxy⟩
  · exact .inl ha.nearest
  · exact .inr (.inl hb.nearest)
  · have hmono := rounded_mono hxy
    rcases nearest_number_cases x with ⟨hx, hxn⟩ | ⟨-, hxn⟩ | ⟨hx, hxn⟩
    · rcases nearest_number_cases y with ⟨-, hyn⟩ | ⟨hy, -⟩ | ⟨-, hyn⟩
      · exact .inr (.inr ⟨_, _, hxn, hyn, hmono⟩)
      · exact absurd (abs_lt.1 hx).1 (not_lt.2 (hmono.trans hy))
      · exact .inr (.inl (.inr hyn))
    · exact .inl (.inr hxn)
    · rcases nearest_number_cases y with ⟨hy, -⟩ | ⟨hy, -⟩ | ⟨-, hyn⟩
      · exact absurd (abs_lt.1 hy).2 (not_lt.2 (hx.trans hmono))
      · have hpos : 0 < doubleLimit := zpow_pos two_pos _
        linarith
      · exact .inr (.inl (.inr hyn))

/-- A number that is not too close to zero keeps its side of zero. -/
theorem zero_lt_nearest {q : ℚ} (h : 2 ^ (-1074 : ℤ) ≤ q) : 0 < (number q).nearest := by
  have hpos := rounded_pos h
  have hlimit : 0 < doubleLimit := zpow_pos two_pos _
  rcases nearest_number_cases q with ⟨-, hq⟩ | ⟨hq, -⟩ | ⟨-, hq⟩
  · rw [hq, zero_eq_number, number_lt_number]
    exact hpos
  · linarith
  · rw [hq]
    rfl

theorem nearest_lt_zero {q : ℚ} (h : q ≤ -2 ^ (-1074 : ℤ)) : (number q).nearest < 0 := by
  have hpos := rounded_pos (le_neg_of_le_neg h)
  have hlimit : 0 < doubleLimit := zpow_pos two_pos _
  rw [rounded_neg] at hpos
  rcases nearest_number_cases q with ⟨-, hq⟩ | ⟨-, hq⟩ | ⟨hq, -⟩
  · rw [hq, zero_eq_number, number_lt_number]
    linarith
  · rw [hq]
    rfl
  · linarith

end Exact

end NetOnChip
