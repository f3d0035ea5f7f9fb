import NetOnChip.Proofs.Scalar.Rounding

/-!
# Arithmetic of doubles

A double stands for an exact scalar (`exact`). Comparisons of doubles are those of the exact scalars
(`lt_iff_exact`, `le_iff_exact`), and a sum, a product or a quotient is the exact one, rounded to
the nearest double (`exact_add`, `exact_mul`, `exact_div`). Only a division by zero is different,
because there are two zeros.

So what holds of exact scalars and is kept by rounding holds of doubles: sums, and products with a
factor that is not negative, never come out in the wrong order (`not_add_lt_add`, `not_mul_lt_mul`),
and an inverse has the sign of the number that it is the inverse of (`inverse_pos`, `inverse_neg`).
-/

namespace NetOnChip

namespace Double

open Float.Model Float.Model.UnpackedFloat

variable {a b c d : Float} {f g : UnpackedFloat} {m n : ℕ} {e k : ℤ} {p q : ℚ}

/-- The exact scalar that a double stands for. -/
def exact (a : Float) : Exact :=
  meaning (value a)

/-! ### Comparisons -/

theorem negative_mul_lt_zero (hq : 0 < q) : coefficient .negative * q < 0 := by
  rw [coefficient]
  linarith

theorem zero_lt_positive_mul (hq : 0 < q) : 0 < coefficient .positive * q := by
  rw [coefficient]
  linarith

theorem decide_coefficient_mul_lt_zero (s : Sign) (hq : 0 < q) :
    decide (coefficient s * q < 0) = (s == .negative) := by
  cases s
  · exact decide_eq_true (negative_mul_lt_zero hq)
  · exact decide_eq_false (zero_lt_positive_mul hq).asymm

theorem coefficient_mul_ne_zero (s : Sign) (hq : 0 < q) : coefficient s * q ≠ 0 := by
  cases s
  · exact (negative_mul_lt_zero hq).ne
  · exact (zero_lt_positive_mul hq).ne'

/-- The double with the larger exponent is larger, because it has all bits of its mantissa. -/
theorem Settled.lt_of_exponent_lt (h : Settled m e) (h' : Settled n k) (hlt : e < k) :
    (m : ℚ) * 2 ^ e < n * 2 ^ k := by
  have hshort : (m : ℚ) < 2 ^ 53 := by exact_mod_cast h.lt
  have hfull : (2 ^ 52 : ℚ) ≤ n := by
    have := h.le_exponent
    exact_mod_cast h'.full.resolve_right (by omega)
  calc
    (m : ℚ) * 2 ^ e < 2 ^ 53 * 2 ^ e := by gcongr
    _ = 2 ^ ((53 : ℤ) + e) := two_pow_mul_zpow 53 e
    _ ≤ 2 ^ ((52 : ℤ) + k) := zpow_le_zpow_right₀ one_le_two (by omega)
    _ = 2 ^ 52 * 2 ^ k := (two_pow_mul_zpow 52 k).symm
    _ ≤ n * 2 ^ k := by gcongr

theorem Settled.compare_eq (h : Settled m e) (h' : Settled n k) :
    (compare e k).then (compare m n) = compare ((m : ℚ) * 2 ^ e) (n * 2 ^ k) := by
  rcases lt_trichotomy e k with hlt | rfl | hlt
  · rw [compare_lt_iff_lt.2 hlt, compare_lt_iff_lt.2 (h.lt_of_exponent_lt h' hlt)]
    rfl
  · have hpos : (0 : ℚ) < 2 ^ e := by positivity
    rw [compare_eq_iff_eq.2 rfl, ← cmp_eq_compare, ← cmp_eq_compare, cmp_mul_pos_right hpos,
      Nat.strictMono_cast.cmp_map_eq]
    rfl
  · rw [compare_gt_iff_gt.2 hlt, compare_gt_iff_gt.2 (h'.lt_of_exponent_lt h hlt)]
    rfl

theorem compare_neg (p q : ℚ) : compare (-1 * p) (-1 * q) = (compare p q).swap := by
  have hanti : StrictAnti fun q : ℚ ↦ -1 * q := fun p q h ↦ by linarith
  rw [← cmp_eq_compare, ← cmp_eq_compare, hanti.cmp_map_eq, cmp_swap]

/-- Doubles that stand for numbers are compared as these. -/
theorem compare_numbers (hf : Canonical f) (hg : Canonical g) (hp : meaning f = .number p)
    (hq : meaning g = .number q) : f.compare g = some (compare p q) := by
  cases f with
  | notANumber => cases hp
  | infinity s => cases hp
  | zero s =>
    obtain rfl := Exact.number.inj hp
    cases g with
    | notANumber => cases hq
    | infinity t => cases hq
    | zero t =>
      obtain rfl := Exact.number.inj hq
      rw [compare_eq_iff_eq.2 rfl]
      rfl
    | finite t n k hn =>
      obtain rfl := Exact.number.inj hq
      have hpos : (0 : ℚ) < n * 2 ^ k := by positivity
      cases t
      · rw [compare_gt_iff_gt.2 (negative_mul_lt_zero hpos)]
        rfl
      · rw [compare_lt_iff_lt.2 (zero_lt_positive_mul hpos)]
        rfl
  | finite s m e hm =>
    obtain rfl := Exact.number.inj hp
    have hpos : (0 : ℚ) < m * 2 ^ e := by positivity
    cases g with
    | notANumber => cases hq
    | infinity t => cases hq
    | zero t =>
      obtain rfl := Exact.number.inj hq
      cases s
      · rw [compare_lt_iff_lt.2 (negative_mul_lt_zero hpos)]
        rfl
      · rw [compare_gt_iff_gt.2 (zero_lt_positive_mul hpos)]
        rfl
    | finite t n k hn =>
      obtain rfl := Exact.number.inj hq
      have hpos' : (0 : ℚ) < n * 2 ^ k := by positivity
      have hcompare := Settled.compare_eq hf hg
      cases s <;> cases t
      · rw [coefficient, compare_neg, ← hcompare]
        rfl
      · rw [compare_lt_iff_lt.2 ((negative_mul_lt_zero hpos).trans (zero_lt_positive_mul hpos'))]
        rfl
      · rw [compare_gt_iff_gt.2 ((negative_mul_lt_zero hpos').trans (zero_lt_positive_mul hpos))]
        rfl
      · rw [coefficient, one_mul, one_mul, ← hcompare]
        rfl

theorem compare_meaning_numbers (hf : Canonical f) (hg : Canonical g) (hp : meaning f = .number p)
    (hq : meaning g = .number q) :
    f.lt g = (meaning f).lt (meaning g) ∧ f.le g = (meaning f).le (meaning g) := by
  rw [UnpackedFloat.lt, UnpackedFloat.le, compare_numbers hf hg hp hq, hp, hq, Exact.lt, Exact.le]
  rcases lt_trichotomy p q with h | rfl | h
  · rw [compare_lt_iff_lt.2 h, decide_eq_true h, decide_eq_true h.le]
    exact ⟨rfl, rfl⟩
  · rw [compare_eq_iff_eq.2 rfl, decide_eq_false (lt_irrefl p), decide_eq_true le_rfl]
    exact ⟨rfl, rfl⟩
  · rw [compare_gt_iff_gt.2 h, decide_eq_false h.asymm, decide_eq_false (not_le.2 h)]
    exact ⟨rfl, rfl⟩

/-- **Doubles are compared as exact scalars.** -/
theorem compare_meaning (hf : Canonical f) (hg : Canonical g) :
    f.lt g = (meaning f).lt (meaning g) ∧ f.le g = (meaning f).le (meaning g) := by
  match f, g with
  | .notANumber, .notANumber | .notANumber, .infinity _ | .infinity _, .notANumber =>
    exact ⟨rfl, rfl⟩
  | .notANumber, .zero _ | .notANumber, .finite .. => exact ⟨rfl, rfl⟩
  | .zero _, .notANumber | .finite .., .notANumber => exact ⟨rfl, rfl⟩
  | .infinity s, .infinity t => cases s <;> cases t <;> exact ⟨rfl, rfl⟩
  | .infinity s, .zero _ | .infinity s, .finite .. => cases s <;> exact ⟨rfl, rfl⟩
  | .zero _, .infinity t => cases t <;> exact ⟨rfl, rfl⟩
  | .finite s .., .infinity t => cases s <;> cases t <;> exact ⟨rfl, rfl⟩
  | .zero _, .zero _ | .zero _, .finite .. | .finite .., .zero _ | .finite .., .finite .. =>
    exact compare_meaning_numbers hf hg rfl rfl

theorem lt_iff_exact : a < b ↔ exact a < exact b := by
  show decide (a.toModel < b.toModel) = true ↔ (exact a).lt (exact b) = true
  rw [decide_eq_true_iff, exact, exact,
    ← (compare_meaning (canonical_value a) (canonical_value b)).1]
  exact Iff.rfl

theorem le_iff_exact : a ≤ b ↔ exact a ≤ exact b := by
  show decide (a.toModel ≤ b.toModel) = true ↔ (exact a).le (exact b) = true
  rw [decide_eq_true_iff, exact, exact,
    ← (compare_meaning (canonical_value a) (canonical_value b)).2]
  exact Iff.rfl

theorem exact_zero : exact 0.0 = 0 := rfl

theorem lt_of_neg_of_pos (ha : a < 0.0) (hb : 0.0 < b) : a < b := by
  rw [lt_iff_exact] at *
  exact Exact.lt_of_neg_of_pos ha hb

/-! ### Sums -/

/-- A canonical double is not rounded. -/
theorem rounded_meaning (hf : Canonical f) (hq : meaning f = .number q) : rounded q = q := by
  cases f with
  | notANumber => cases hq
  | infinity s => cases hq
  | zero s =>
    obtain rfl := Exact.number.inj hq
    exact rounded_zero
  | finite s m e hm =>
    obtain rfl := Exact.number.inj hq
    obtain ⟨hlt, hmin, hfull⟩ : Settled m e := hf
    have hlog := log_eq hm.ne' le_rfl (lt_add_one (m : ℚ)) e
    have hhigh := (Nat.log2_lt hm.ne').2 hlt
    have hstep : stepExponent (m * 2 ^ e) = e := by
      rw [stepExponent, abs_of_pos (by positivity), hlog]
      rcases hfull with hfull | rfl
      · have hlow := (Nat.le_log2 hm.ne').2 hfull
        omega
      · omega
    rw [rounded_coefficient_mul]
    exact congrArg _ (rounded_eq_self (k := m) (by exact_mod_cast hstep))

theorem nearest_meaning (hf : Canonical f) (hq : meaning f = .number q) :
    meaning (stored f) = (Exact.number q).nearest :=
  meaning_stored hf (by rw [rounded_meaning hf hq, hq])

theorem meaning_stored_zero (s : Sign) : meaning (stored (.zero s)) = (Exact.number 0).nearest :=
  nearest_meaning (f := .zero s) trivial rfl

/-- Lowering the exponent does not change what a mantissa stands for. -/
theorem apply_decreaseExponent (s : Sign) (m : ℕ) (h : k ≤ e) :
    ((s.apply (decreaseExponent m e k).1 : ℤ) : ℚ) * 2 ^ k = coefficient s * (m * 2 ^ e) := by
  obtain ⟨n, hn⟩ := Int.eq_ofNat_of_zero_le (sub_nonneg.2 h)
  obtain rfl : e = n + k := by omega
  have hshift : ((decreaseExponent m (n + k) k).1 : ℚ) * 2 ^ k = m * 2 ^ ((n : ℤ) + k) := by
    rw [decreaseExponent, add_sub_cancel_right, zpow_add₀ two_ne_zero]
    simp only [Int.toNat_natCast, Nat.shiftLeft_eq]
    push_cast
    ring_nf
    norm_cast
  cases s
  · rw [coefficient, Sign.apply, Int.cast_neg, Int.cast_natCast, neg_mul, hshift, neg_one_mul]
  · rw [coefficient, Sign.apply, Int.cast_natCast, hshift, one_mul]

theorem meaning_add (hf : Canonical f) (hg : Canonical g) :
    meaning (stored (.add .binary64 f g)) = (meaning f + meaning g).nearest := by
  match f, g with
  | .notANumber, g => exact congrArg meaning stored_notANumber
  | .infinity s, .notANumber | .zero s, .notANumber | .finite s .., .notANumber =>
    exact congrArg meaning stored_notANumber
  | .infinity s, .infinity t => cases s <;> cases t <;> rfl
  | .infinity s, .zero _ | .infinity s, .finite .. => exact congrArg meaning (stored_infinity s)
  | .zero _, .infinity t | .finite .., .infinity t => exact congrArg meaning (stored_infinity t)
  | .zero s, .zero t =>
    have hsum : meaning (stored (.add .binary64 (.zero s) (.zero t))) =
        (Exact.number 0).nearest := by
      cases s <;> cases t <;> exact meaning_stored_zero _
    exact hsum.trans (congrArg (Exact.nearest ∘ Exact.number) (zero_add 0).symm)
  | .zero _, .finite t n k hn =>
    refine nearest_meaning (f := .finite t n k hn) hg ?_
    rw [zero_add]
    rfl
  | .finite s m e hm, .zero _ =>
    refine nearest_meaning (f := .finite s m e hm) hf ?_
    rw [add_zero]
    rfl
  | .finite s m e hm, .finite t n k hn =>
    obtain ⟨hcanonical, hmeaning⟩ := normalize_spec
      (s.apply (decreaseExponent m e (min e k)).1 + t.apply (decreaseExponent n k (min e k)).1)
      (min e k) .positive
    rw [Int.cast_add, add_mul, apply_decreaseExponent s m (min_le_left e k),
      apply_decreaseExponent t n (min_le_right e k)] at hmeaning
    exact meaning_stored hcanonical hmeaning

/-! ### Products -/

/-- A product of two mantissas takes at least the bits that its exponent leaves for it. -/
theorem Settled.add_le_stepExponent (h : Settled m e) (h' : Settled n k) (hm : 0 < m)
    (hn : 0 < n) : e + k ≤ stepExponent ((m * n : ℕ) * 2 ^ (e + k)) := by
  have hpos : 0 < m * n := Nat.mul_pos hm hn
  have hcast : (0 : ℚ) < (m * n : ℕ) := by exact_mod_cast hpos
  have hlong : 2 ^ 52 ≤ m * n ∨ e + k ≤ -1074 := by
    have hm' : m ≤ m * n := Nat.le_mul_of_pos_right m hn
    have hn' : n ≤ m * n := Nat.le_mul_of_pos_left n hm
    have := h.full
    have := h'.full
    omega
  rw [stepExponent, abs_of_pos (by positivity), log_eq hpos.ne' le_rfl (lt_add_one _)]
  rcases hlong with hfull | hsmall
  · have := (Nat.le_log2 hpos.ne').2 hfull
    omega
  · omega

theorem infinite_mul_number (s t : Sign) (hq : 0 < q) :
    Exact.infinite (s == .negative) * Exact.number (coefficient t * q) =
      .infinite (s * t == .negative) := by
  show (if coefficient t * q = 0 then .undefined
    else Exact.infinite ((s == .negative) != decide (coefficient t * q < 0))) = _
  rw [if_neg (coefficient_mul_ne_zero t hq), decide_coefficient_mul_lt_zero t hq]
  cases s <;> cases t <;> rfl

theorem meaning_mul (hf : Canonical f) (hg : Canonical g) :
    meaning (stored (.mul .binary64 f g)) = (meaning f * meaning g).nearest := by
  match f, g with
  | .notANumber, g => exact congrArg meaning stored_notANumber
  | .infinity s, .notANumber | .zero s, .notANumber | .finite s .., .notANumber =>
    exact congrArg meaning stored_notANumber
  | .infinity s, .infinity t => cases s <;> cases t <;> rfl
  | .infinity s, .zero _ | .zero _, .infinity s =>
    refine (congrArg meaning stored_notANumber).trans ?_
    cases s <;> rfl
  | .infinity s, .finite t n k hn =>
    refine (congrArg meaning (stored_infinity (s * t))).trans ?_
    exact congrArg Exact.nearest (infinite_mul_number s t (by positivity)).symm
  | .finite s m e hm, .infinity t =>
    refine (congrArg meaning (stored_infinity (s * t))).trans ?_
    have hcomm : (t * s == .negative) = (s * t == .negative) := by cases s <;> cases t <;> rfl
    rw [Exact.mul_comm]
    exact congrArg Exact.nearest
      ((infinite_mul_number t s (by positivity)).trans (congrArg Exact.infinite hcomm)).symm
  | .zero s, .zero t | .zero s, .finite t .. =>
    exact (meaning_stored_zero (s * t)).trans
      (congrArg (Exact.nearest ∘ Exact.number) (zero_mul _).symm)
  | .finite s .., .zero t =>
    exact (meaning_stored_zero (s * t)).trans
      (congrArg (Exact.nearest ∘ Exact.number) (mul_zero _).symm)
  | .finite s m e hm, .finite t n k hn =>
    have hpos : (0 : ℚ) < (m * n : ℕ) := by exact_mod_cast Nat.mul_pos hm hn
    obtain ⟨hcanonical, hmeaning⟩ := roundWithAccuracy_spec (s * t) hpos (represents_exact _)
      (Settled.add_le_stepExponent hf hg hm hn)
    rw [← rounded_coefficient_mul] at hmeaning
    refine (meaning_stored hcanonical hmeaning).trans (congrArg (Exact.nearest ∘ Exact.number) ?_)
    rw [coefficient_mul, zpow_add₀ two_ne_zero]
    push_cast
    ring

/-! ### Quotients -/

/-- A remainder says where the fraction lies between two mantissas. -/
theorem represents_fraction (m : ℕ) (hn : 0 < n) :
    Represents (.ofMantissaAndAccuracy (m / n) (accuracyOfFraction (m % n) n)) (m / n) := by
  have hpos : (0 : ℚ) < n := by exact_mod_cast hn
  have hsplit : (m / n : ℚ) = (m / n : ℕ) + (m % n : ℕ) / n := by
    rw [div_eq_iff hpos.ne', add_mul, div_mul_cancel₀ _ hpos.ne', mul_comm]
    exact_mod_cast (Nat.div_add_mod m n).symm
  have hlt : ((m % n : ℕ) : ℚ) < n := by exact_mod_cast Nat.mod_lt m hn
  rw [hsplit, accuracyOfFraction]
  generalize m % n = r at hlt
  split
  · rename_i hzero
    rw [hzero, Nat.cast_zero, zero_div, add_zero]
    exact represents_exact _
  · rename_i hne
    have hr : (0 : ℚ) < r / n := div_pos (by exact_mod_cast Nat.pos_of_ne_zero hne) hpos
    have hone : (r / n : ℚ) < 1 := (div_lt_one hpos).2 hlt
    rcases lt_trichotomy (2 * r) n with h | h | h
    · have hhalf : (r / n : ℚ) < 1 / 2 := by
        rw [div_lt_div_iff₀ hpos two_pos]
        exact_mod_cast (by omega : r * 2 < 1 * n)
      rw [compare_lt_iff_lt.2 h]
      exact ⟨by linarith, by linarith⟩
    · have hhalf : (r / n : ℚ) = 1 / 2 := by
        rw [div_eq_div_iff hpos.ne' two_ne_zero]
        exact_mod_cast (by omega : r * 2 = 1 * n)
      rw [compare_eq_iff_eq.2 h, hhalf]
      rfl
    · have hhalf : (1 / 2 : ℚ) < r / n := by
        rw [div_lt_div_iff₀ two_pos hpos]
        exact_mod_cast (by omega : 1 * n < r * 2)
      rw [compare_gt_iff_gt.2 h]
      exact ⟨by linarith, by linarith⟩

/-- The exponent of a quotient is at least the difference of the exponents, less one. -/
theorem sub_le_log_div (m : ℕ) (e : ℤ) (n : ℕ) (k : ℤ) (hm : 0 < m) (hn : 0 < n) :
    m.log2 + e - (n.log2 + k + 1) ≤ Int.log 2 (m * 2 ^ e / (n * 2 ^ k) : ℚ) := by
  have hmpos : (0 : ℚ) < m := by exact_mod_cast hm
  have hnpos : (0 : ℚ) < n := by exact_mod_cast hn
  have hlow : (((2 : ℕ) : ℚ) ^ ((m.log2 : ℤ) + e)) ≤ m * 2 ^ e := by
    rw [Int.zpow_le_iff_le_log (by norm_num) (by positivity),
      log_eq hm.ne' le_rfl (lt_add_one _)]
  have hhigh : (n * 2 ^ k : ℚ) < ((2 : ℕ) : ℚ) ^ ((n.log2 : ℤ) + k + 1) := by
    rw [Int.lt_zpow_iff_log_lt (by norm_num) (by positivity),
      log_eq hn.ne' le_rfl (lt_add_one _)]
    omega
  rw [← Int.zpow_le_iff_le_log (by norm_num) (by positivity), le_div_iff₀ (by positivity)]
  calc
    ((2 : ℕ) : ℚ) ^ ((m.log2 : ℤ) + e - (n.log2 + k + 1)) * (n * 2 ^ k) ≤
        ((2 : ℕ) : ℚ) ^ ((m.log2 : ℤ) + e - (n.log2 + k + 1)) *
          ((2 : ℕ) : ℚ) ^ ((n.log2 : ℤ) + k + 1) := by gcongr
    _ = ((2 : ℕ) : ℚ) ^ ((m.log2 : ℤ) + e) := by
      rw [← zpow_add₀ (by norm_num), sub_add_cancel]
    _ ≤ m * 2 ^ e := hlow

/-- A quotient of two mantissas has all bits that its exponent leaves for it. -/
theorem divCore_spec (m : ℕ) (e : ℤ) (n : ℕ) (k : ℤ) (hm : 0 < m) (hn : 0 < n) :
    let (r, j, accuracy) := divCore .binary64 m e n k
    ∃ q, 0 < q ∧ Represents (.ofMantissaAndAccuracy r accuracy) q ∧
      q * 2 ^ j = m * 2 ^ e / (n * 2 ^ k) ∧ j ≤ stepExponent (q * 2 ^ j) := by
  have hmpos : (0 : ℚ) < m := by exact_mod_cast hm
  have hnpos : (0 : ℚ) < n := by exact_mod_cast hn
  rw [divCore, targetExponent_eq, totalExponent, totalExponent]
  dsimp only
  generalize hj : min (e - k) (max (m.log2 + 1 + e - (n.log2 + 1 + k) - 53) (-1074)) = j
  obtain ⟨i, hi⟩ := Int.eq_ofNat_of_zero_le (sub_nonneg.2 (by omega : j ≤ e - k))
  rw [hi, Int.toNat_natCast, Nat.shiftLeft_eq]
  have hvalue : ((m * 2 ^ i : ℕ) / n : ℚ) * 2 ^ j = m * 2 ^ e / (n * 2 ^ k) := by
    have hpow : (2 : ℚ) ^ e = 2 ^ k * 2 ^ i * 2 ^ j := by
      rw [← zpow_natCast, ← zpow_add₀ two_ne_zero, ← zpow_add₀ two_ne_zero]
      congr 1
      omega
    rw [hpow]
    push_cast
    field_simp
  refine ⟨(m * 2 ^ i : ℕ) / n, ?_, represents_fraction _ hn, hvalue, ?_⟩
  · push_cast
    positivity
  · have hpos : (0 : ℚ) < m * 2 ^ e / (n * 2 ^ k) := by positivity
    have hlog := sub_le_log_div m e n k hm hn
    rw [hvalue, stepExponent, abs_of_pos hpos]
    omega

theorem coefficient_div (s t : Sign) : coefficient (s / t) = coefficient s / coefficient t := by
  cases s <;> cases t
  · exact (div_self (neg_ne_zero.2 one_ne_zero)).symm
  · exact (div_one (-1)).symm
  · exact (by norm_num : (-1 : ℚ) = 1 / -1)
  · exact (div_one 1).symm

theorem meaning_div (hf : Canonical f) (hg : Canonical g) (hne : meaning g ≠ .number 0) :
    meaning (stored (.div .binary64 f g)) = (meaning f / meaning g).nearest := by
  match f, g with
  | .notANumber, g => exact congrArg meaning stored_notANumber
  | .infinity s, .notANumber | .zero s, .notANumber | .finite s .., .notANumber =>
    exact congrArg meaning stored_notANumber
  | f, .zero t => exact absurd rfl hne
  | .infinity s, .infinity t => exact congrArg meaning stored_notANumber
  | .infinity s, .finite t n k hn =>
    refine (congrArg meaning (stored_infinity (s / t))).trans ?_
    have hdecide := decide_coefficient_mul_lt_zero t (q := n * 2 ^ k) (by positivity)
    show _ = Exact.infinite ((s == .negative) != decide (coefficient t * (n * 2 ^ k) < 0))
    rw [hdecide]
    cases s <;> cases t <;> rfl
  | .zero s, .infinity t | .finite s .., .infinity t => exact meaning_stored_zero (s / t)
  | .zero s, .finite t n k hn =>
    have hdivisor := coefficient_mul_ne_zero t (q := n * 2 ^ k) (by positivity)
    refine (meaning_stored_zero (s / t)).trans (congrArg Exact.nearest ?_)
    show _ = if coefficient t * (n * 2 ^ k) = 0 then _
      else Exact.number (0 / (coefficient t * (n * 2 ^ k)))
    rw [if_neg hdivisor, zero_div]
  | .finite s m e hm, .finite t n k hn =>
    have hdivisor := coefficient_mul_ne_zero t (q := n * 2 ^ k) (by positivity)
    obtain ⟨q, hq, hrep, hvalue, hle⟩ := divCore_spec m e n k hm hn
    obtain ⟨hcanonical, hmeaning⟩ := roundWithAccuracy_spec (s / t) hq hrep hle
    rw [hvalue, ← rounded_coefficient_mul] at hmeaning
    refine (meaning_stored hcanonical hmeaning).trans (congrArg Exact.nearest ?_)
    show _ = if coefficient t * (n * 2 ^ k) = 0 then _
      else Exact.number (coefficient s * (m * 2 ^ e) / (coefficient t * (n * 2 ^ k)))
    rw [if_neg hdivisor, mul_div_mul_comm (coefficient s), coefficient_div]

/-! ### Doubles -/

theorem exact_add (a b : Float) : exact (a + b) = (exact a + exact b).nearest :=
  meaning_add (canonical_value a) (canonical_value b)

theorem exact_mul (a b : Float) : exact (a * b) = (exact a * exact b).nearest :=
  meaning_mul (canonical_value a) (canonical_value b)

theorem exact_div (a : Float) (hb : exact b ≠ 0) : exact (a / b) = (exact a / exact b).nearest :=
  meaning_div (canonical_value a) (canonical_value b) hb

/-! ### Differences and whole numbers -/

theorem apply_neg (s : Sign) (i : ℤ) : (-s).apply i = -s.apply i := by
  cases s
  · exact (neg_neg i).symm
  · rfl

/-- A difference is the sum with the opposite. -/
theorem sub_eq_add_neg (f g : UnpackedFloat) : f.sub .binary64 g = f.add .binary64 g.neg := by
  match f, g with
  | .notANumber, _ => rfl
  | .infinity _, .notANumber | .zero _, .notANumber | .finite .., .notANumber => rfl
  | .infinity _, .infinity _ | .zero _, .infinity _ | .finite .., .infinity _ => rfl
  | .infinity _, .zero _ | .zero _, .zero _ | .finite .., .zero _ => rfl
  | .infinity _, .finite .. | .zero _, .finite .. => rfl
  | .finite s m e hm, .finite t n k hn =>
    show normalize _ (s.apply _ - t.apply _) _ _ = normalize _ (s.apply _ + (-t).apply _) _ _
    rw [apply_neg, Int.sub_eq_add_neg]

theorem canonical_neg (hf : Canonical f) : Canonical f.neg := by
  cases f <;> exact hf

theorem meaning_neg (f : UnpackedFloat) : meaning f.neg = -meaning f := by
  match f with
  | .notANumber => rfl
  | .infinity s => cases s <;> rfl
  | .zero _ => exact congrArg Exact.number neg_zero.symm
  | .finite s m e hm =>
    refine congrArg Exact.number ?_
    cases s <;> simp [coefficient]

theorem exact_sub (a b : Float) : exact (a - b) = (exact a - exact b).nearest := by
  have hsub : exact (a - b) = meaning (stored (.add .binary64 (value a) (value b).neg)) := by
    rw [exact, value_sub, sub_eq_add_neg]
  rw [hsub, meaning_add (canonical_value a) (canonical_neg (canonical_value b)), meaning_neg]
  rfl

theorem exact_toFloat (n : UInt64) : exact n.toFloat = (Exact.number n.toNat).nearest := by
  obtain ⟨hcanonical, hmeaning⟩ := normalize_spec n.toNat 0 .positive
  rw [zpow_zero, mul_one] at hmeaning
  exact meaning_stored hcanonical hmeaning

/-- A double is not rounded again. -/
theorem nearest_exact (a : Float) : (exact a).nearest = exact a := by
  match hq : exact a with
  | .number q =>
    rw [← nearest_meaning (canonical_value a) hq, stored_eq_self (canonical_value a) (fits_value a)]
    exact hq
  | .infinite _ | .undefined => rfl

/-! ### Sums and products in order -/

/-- **Sums of doubles keep the order.** -/
theorem not_add_lt_add (hab : ¬ b < a) (hcd : ¬ d < c) : ¬ b + d < a + c := by
  rw [lt_iff_exact] at hab hcd ⊢
  rw [exact_add, exact_add]
  exact Exact.not_nearest_lt_nearest (Exact.not_add_lt_add hab hcd)

/-- **Products of doubles** with a factor that is not negative keep the order. -/
theorem not_mul_lt_mul (h : ¬ b < a) (hc : 0.0 ≤ c) : ¬ b * c < a * c := by
  rw [lt_iff_exact] at h ⊢
  rw [le_iff_exact] at hc
  rw [exact_mul, exact_mul]
  exact Exact.not_nearest_lt_nearest (Exact.not_mul_lt_mul h hc)

theorem not_mul_lt_mul_left (h : ¬ b < a) (hc : 0.0 ≤ c) : ¬ c * b < c * a := by
  have hmul := not_mul_lt_mul h hc
  rw [lt_iff_exact, exact_mul, exact_mul] at hmul ⊢
  rwa [Exact.mul_comm (exact c), Exact.mul_comm (exact c)]

/-- **Quotients of doubles** by a positive number keep the side of zero. -/
theorem not_div_lt_zero (h : ¬ a < 0.0) (hb : exact b = .number q) (hq : 0 < q) :
    ¬ a / b < 0.0 := by
  have hne : exact b ≠ 0 := by
    rw [hb]
    exact fun h ↦ hq.ne' (Exact.number.inj h)
  rw [lt_iff_exact] at h ⊢
  rw [exact_div a hne, hb, ← nearest_exact 0.0]
  exact Exact.not_nearest_lt_nearest (Exact.not_div_lt_zero h hq)

/-! ### Inverses -/

theorem exact_one : exact 1.0 = .number 1 := by
  show Exact.number (1 * ((2 ^ 52 : ℕ) * 2 ^ (-52 : ℤ))) = _
  norm_num

/-- A finite double stands for a number below the limit. -/
theorem exists_exact (ha : a.isFinite) : ∃ q, exact a = .number q ∧ |q| < doubleLimit := by
  have hcanonical := canonical_value a
  have hfits := fits_value a
  obtain ⟨s, hs⟩ | ⟨s, m, e, hm, hs⟩ := isFinite_cases ha
  · refine ⟨0, by rw [exact, hs]; rfl, ?_⟩
    rw [abs_zero]
    exact zpow_pos two_pos _
  · rw [hs] at hcanonical hfits
    refine ⟨coefficient s * (m * 2 ^ e), by rw [exact, hs]; rfl, ?_⟩
    have hpos : (0 : ℚ) < m * 2 ^ e := by positivity
    rw [abs_coefficient_mul s hpos, Settled.lt_doubleLimit_iff hcanonical]
    exact (fits_iff ..).1 hfits

/-- The inverse of a number below the limit is not too close to zero. -/
theorem le_inverse (hpos : 0 < q) (hlimit : q < doubleLimit) : 2 ^ (-1074 : ℤ) ≤ 1 / q :=
  calc
    (2 : ℚ) ^ (-1074 : ℤ) ≤ 2 ^ (-1024 : ℤ) := zpow_le_zpow_right₀ one_le_two (by norm_num)
    _ = 1 / doubleLimit := by rw [doubleLimit, zpow_neg, one_div]
    _ ≤ 1 / q := one_div_le_one_div_of_le hpos hlimit.le

theorem exact_inverse (ha : exact a = .number q) (hq : q ≠ 0) :
    exact (1.0 / a) = (Exact.number (1 / q)).nearest := by
  have hne : exact a ≠ 0 := by
    rw [ha]
    exact fun h ↦ hq (Exact.number.inj h)
  rw [exact_div _ hne, ha, exact_one]
  show Exact.nearest (if q = 0 then _ else Exact.number (1 / q)) = _
  rw [if_neg hq]

/-- **The inverse of a positive double** is positive, also if it is rounded. -/
theorem inverse_pos (ha : a.isFinite) (hpos : 0.0 < a) : 0.0 < 1.0 / a := by
  obtain ⟨q, hq, hlimit⟩ := exists_exact ha
  rw [lt_iff_exact, exact_zero, hq, Exact.zero_eq_number, Exact.number_lt_number] at hpos
  rw [lt_iff_exact, exact_zero, exact_inverse hq hpos.ne']
  exact Exact.zero_lt_nearest (le_inverse hpos ((le_abs_self q).trans_lt hlimit))

/-- **The inverse of a negative double** is negative, also if it is rounded. -/
theorem inverse_neg (ha : a.isFinite) (hneg : a < 0.0) : 1.0 / a < 0.0 := by
  obtain ⟨q, hq, hlimit⟩ := exists_exact ha
  rw [lt_iff_exact, exact_zero, hq, Exact.zero_eq_number, Exact.number_lt_number] at hneg
  rw [lt_iff_exact, exact_zero, exact_inverse hq hneg.ne]
  have hle := le_inverse (neg_pos.2 hneg) ((neg_le_abs q).trans_lt hlimit)
  rw [one_div_neg_eq_neg_one_div] at hle
  exact Exact.nearest_lt_zero (le_neg_of_le_neg hle)

/-! ### Two zeros -/

theorem ext_toNat (h : a.toModel.toBits.toNat = b.toModel.toBits.toNat) : a = b := by
  obtain ⟨⟨x, hx⟩⟩ := a
  obtain ⟨⟨y, hy⟩⟩ := b
  obtain rfl : x = y := UInt64.toNat_inj.1 h
  rfl

/-- A zero has no bits but that of its sign. -/
theorem toNat_of_unpack_eq_zero {bits : BitVec Format.binary64.numBits} {s : Sign}
    (h : UnpackedFloat.unpack .binary64 bits = .zero s) :
    bits.toNat = 0 ∨ bits.toNat = 2 ^ 63 := by
  rw [UnpackedFloat.unpack] at h
  dsimp only at h
  split at h
  · split at h <;> cases h
  · split at h
    · rename_i hexponent
      split at h
      · rename_i hmantissa
        have hupper := congrArg BitVec.toNat hexponent
        have hlower := congrArg BitVec.toNat hmantissa
        have hlt : bits.toNat < 2 ^ 64 := bits.isLt
        simp only [unpackExponent, BitVec.toNat_cast, BitVec.extractLsb_toNat,
          Nat.shiftRight_eq_div_pow, BitVec.toNat_zero] at hupper
        simp only [unpackMantissa, BitVec.toNat_cast, BitVec.extractLsb_toNat,
          Nat.shiftRight_eq_div_pow, BitVec.toNat_zero] at hlower
        omega
      · cases h
    · cases h

theorem eq_zero_of_value {s : Sign} (h : value a = .zero s) : a = 0.0 ∨ a = -0.0 := by
  rcases toNat_of_unpack_eq_zero h with hbits | hbits
  · exact .inl (ext_toNat (hbits.trans (by decide +kernel)))
  · exact .inr (ext_toNat (hbits.trans (by decide +kernel)))

/-- A finite double is positive, negative or one of two zeros. -/
theorem sign_cases (ha : a.isFinite) : (0.0 < a ∨ a = 0.0) ∨ a < 0.0 ∨ a = -0.0 := by
  obtain ⟨s, hs⟩ | ⟨s, m, e, hm, hs⟩ := isFinite_cases ha
  · exact (eq_zero_of_value hs).imp .inr .inr
  · cases s
    · refine .inr (.inl (lt_iff.2 ?_))
      rw [hs]
      rfl
    · refine .inl (.inl (lt_iff.2 ?_))
      rw [hs]
      rfl

end Double

end NetOnChip
