import NetOnChip.Proofs.Scalar.Double
import NetOnChip.Proofs.Scalar.Nearest

/-!
# How doubles are rounded

The model of doubles rounds a result in three steps: it shifts the mantissa until the exponent is
the one that the result is to have, rounds it by two bits that are left of what was shifted out, and
shifts once more if the mantissa has become too long. Then it packs what it has into the bits of a
double.

Here is what comes out of this: the double that is nearest to the exact result
(`meaning_roundWithAccuracy`, `meaning_stored`). The two bits say where the exact result lies
between two mantissas (`Represents`), and a shift keeps what they say. The doubles that come out are
*canonical*: of the exponents with which a number can be written they have the one that leaves 53
bits for the mantissa, or the smallest one. Packing loses nothing of a canonical double, unless it
is too large (`stored_eq_self`).
-/

namespace NetOnChip

namespace Double

open Float.Model Float.Model.UnpackedFloat

variable {f : UnpackedFloat} {s : Sign} {m : ℕ} {e : ℤ} {q : ℚ}

/-! ### Where a result lies between two mantissas -/

/-- What a mantissa and the two bits next to it say about a number. -/
def Represents : ExtendedMantissa → ℚ → Prop
  | ⟨m, false, false⟩, q => q = m
  | ⟨m, false, true⟩, q => m < q ∧ q < m + 1 / 2
  | ⟨m, true, false⟩, q => q = m + 1 / 2
  | ⟨m, true, true⟩, q => m + 1 / 2 < q ∧ q < m + 1

namespace Represents

variable {em : ExtendedMantissa}

theorem floor (h : Represents em q) : ⌊q⌋ = em.mantissa := by
  rw [Int.floor_eq_iff]
  obtain ⟨m, _ | _, _ | _⟩ := em <;> simp only [Represents, Int.cast_natCast] at h ⊢ <;>
    constructor <;> linarith

/-- The bits are enough to round by. -/
theorem roundedMantissa (h : Represents em q) : (em.roundedMantissa : ℤ) = halfEven q := by
  have hfloor := h.floor
  unfold halfEven
  rw [hfloor]
  obtain ⟨m, _ | _, _ | _⟩ := em <;>
    simp only [Represents, ExtendedMantissa.roundedMantissa, ExtendedMantissa.accuracy,
      Accuracy.roundToNearestEven, Int.cast_natCast] at h ⊢
  · rw [if_pos (by linarith)]
  · rw [if_pos (by linarith)]
  · rw [if_neg (by linarith), if_neg (by linarith)]
    push_cast
    rfl
  · rw [if_neg (by linarith), if_pos (by linarith)]
    push_cast
    rfl

/-- The bit that is shifted out is the new first bit, and the second one collects the others. -/
theorem shiftRightOne (h : Represents em q) : Represents em.shiftRightOne (q / 2) := by
  obtain ⟨m, r, t⟩ := em
  have hsplit : (m : ℚ) = 2 * (m / 2 : ℕ) + (m % 2 : ℕ) := by
    exact_mod_cast (Nat.div_add_mod m 2).symm
  rcases Nat.mod_two_eq_zero_or_one m with hbit | hbit <;>
    rw [hbit] at hsplit <;>
    cases r <;> cases t <;>
    simp only [Represents, ExtendedMantissa.shiftRightOne, hbit, Bool.or_self, Bool.or_true,
      Bool.or_false, bne_self_eq_false, Nat.cast_zero, Nat.cast_one, hsplit,
      show (1 != 0) = true from rfl] at h ⊢ <;>
    first | linarith | constructor <;> linarith

/-- A shift halves the number with every bit that is shifted out. -/
theorem shiftRight (h : Represents em q) (n : ℕ) : Represents (em >>> n) (q / 2 ^ n) := by
  show Represents (n.repeat ExtendedMantissa.shiftRightOne em) _
  induction n with
  | zero => simpa [Nat.repeat] using h
  | succ n ih =>
    rw [Nat.repeat, pow_succ, ← div_div]
    exact ih.shiftRightOne

theorem between {accuracy : Accuracy} (h : Represents (.ofMantissaAndAccuracy m accuracy) q) :
    m ≤ q ∧ q < m + 1 := by
  have hmantissa : (ExtendedMantissa.ofMantissaAndAccuracy m accuracy).mantissa = m := by
    obtain _ | (_ | _ | _) := accuracy <;> rfl
  have hfloor := h.floor
  rw [hmantissa, Int.floor_eq_iff] at hfloor
  exact_mod_cast hfloor

end Represents

theorem represents_exact (m : ℕ) : Represents (.ofMantissaAndAccuracy m .exact) m :=
  rfl

/-! ### The exponent of a result -/

theorem log_eq (hm : m ≠ 0) (hlow : m ≤ q) (hhigh : q < m + 1) (e : ℤ) :
    Int.log 2 (q * 2 ^ e) = m.log2 + e := by
  have hpos : (0 : ℚ) < 2 ^ e := by positivity
  have hq : 0 < q := lt_of_lt_of_le (by exact_mod_cast Nat.pos_of_ne_zero hm) hlow
  have hself : ((2 ^ m.log2 : ℕ) : ℚ) ≤ m := by exact_mod_cast Nat.log2_self_le hm
  have hnext : (m + 1 : ℚ) ≤ ((2 ^ (m.log2 + 1) : ℕ) : ℚ) := by exact_mod_cast Nat.lt_log2_self
  refine le_antisymm (Int.lt_add_one_iff.1 ?_) ?_
  · rw [← Int.lt_zpow_iff_log_lt (by norm_num) (by positivity), add_right_comm]
    calc
      q * 2 ^ e < ((2 ^ (m.log2 + 1) : ℕ) : ℚ) * 2 ^ e := by gcongr; linarith
      _ = 2 ^ ((m.log2 : ℤ) + 1 + e) := by
        push_cast
        exact two_pow_mul_zpow (m.log2 + 1) e
  · rw [← Int.zpow_le_iff_le_log (by norm_num) (by positivity)]
    calc
      ((2 : ℕ) : ℚ) ^ ((m.log2 : ℤ) + e) = ((2 ^ m.log2 : ℕ) : ℚ) * 2 ^ e := by
        push_cast
        exact (two_pow_mul_zpow m.log2 e).symm
      _ ≤ q * 2 ^ e := by gcongr; linarith

theorem targetExponent_eq (t : ℤ) : Format.binary64.targetExponent t = max (t - 53) (-1074) := by
  have hmin : Format.binary64.minExponent = -1074 := rfl
  have hbits : (Format.binary64.mantissaBits : ℤ) = 53 := rfl
  rw [Format.targetExponent, hmin, hbits]

theorem targetExponent_totalExponent (m : ℕ) (e : ℤ) :
    Format.binary64.targetExponent (totalExponent m e) = max (m.log2 + e - 52) (-1074) := by
  rw [targetExponent_eq, totalExponent]
  congr 1
  omega

/-- The exponent that a result is shifted to, if it does not have a larger one. -/
theorem targetExponent_eq_stepExponent (hq : 0 < q) (hlow : m ≤ q) (hhigh : q < m + 1)
    (he : e ≤ stepExponent (q * 2 ^ e)) :
    Format.binary64.targetExponent (totalExponent m e) = stepExponent (q * 2 ^ e) := by
  have habs : |q * 2 ^ e| = q * 2 ^ e := abs_of_pos (by positivity)
  rw [targetExponent_totalExponent]
  rw [stepExponent, habs] at he ⊢
  rcases eq_or_ne m 0 with rfl | hm
  · -- then the result is less than a step of its own exponent, so this is the smallest one
    have hlog : Int.log 2 (q * 2 ^ e) < e := by
      rw [← Int.lt_zpow_iff_log_lt (by norm_num) (by positivity)]
      have : q < 1 := by simpa using hhigh
      have : (0 : ℚ) < 2 ^ e := by positivity
      push_cast
      nlinarith
    have : Nat.log2 0 = 0 := rfl
    omega
  · rw [log_eq hm hlow hhigh]

/-! ### Canonical doubles -/

/-- The mantissa of a double has 53 bits. It has fewer only with the smallest exponent. -/
structure Settled (m : ℕ) (e : ℤ) : Prop where
  /-- The mantissa has no more than 53 bits. -/
  lt : m < 2 ^ 53
  /-- The exponent is not less than the smallest one. -/
  le_exponent : -1074 ≤ e
  /-- The mantissa has all bits, unless the exponent is the smallest one. -/
  full : 2 ^ 52 ≤ m ∨ e = -1074

/-- The exponent of a double is the one that its mantissa requires. -/
def Canonical : UnpackedFloat → Prop
  | .finite _ m e _ => Settled m e
  | .notANumber | .infinity _ | .zero _ => True

/-- The factor that a sign stands for. -/
def coefficient : Sign → ℚ
  | .negative => -1
  | .positive => 1

/-- The exact scalar that a double stands for. -/
def meaning : UnpackedFloat → Exact
  | .notANumber => .undefined
  | .infinity s => .infinite (s == .negative)
  | .zero _ => .number 0
  | .finite s m e _ => .number (coefficient s * (m * 2 ^ e))

/-- The second shift does not change what a rounded mantissa stands for. -/
theorem shiftToTargetExponent_exact (hm : m ≤ 2 ^ 53) (he : -1074 ≤ e)
    (hfull : 2 ^ 52 ≤ m ∨ e = -1074) :
    let shifted := shiftToTargetExponent .binary64 m e .exact
    Settled shifted.1.mantissa shifted.2 ∧
      (shifted.1.mantissa : ℚ) * 2 ^ shifted.2 = m * 2 ^ e := by
  rw [shiftToTargetExponent, shiftToExponent, targetExponent_totalExponent]
  rcases hm.lt_or_eq with hlt | rfl
  · have hlog : m.log2 ≤ 52 := by
      rcases Nat.eq_zero_or_pos m with rfl | hpos
      · exact Nat.zero_le _
      · exact Nat.le_of_lt_succ ((Nat.log2_lt hpos.ne').2 hlt)
    rw [show (max (m.log2 + e - 52) (-1074) - e).toNat = 0 by omega, Nat.cast_zero, add_zero]
    exact ⟨⟨hlt, he, hfull⟩, rfl⟩
  · have hlog : (2 ^ 53).log2 = 53 := by decide
    rw [hlog, show (max (((53 : ℕ) : ℤ) + e - 52) (-1074) - e).toNat = 1 by omega]
    have hhalf : ((ExtendedMantissa.ofMantissaAndAccuracy (2 ^ 53) .exact) >>> 1).mantissa =
        2 ^ 52 := by decide
    refine ⟨⟨?_, ?_, ?_⟩, ?_⟩
    · rw [hhalf]
      norm_num
    · push_cast
      omega
    · exact .inl hhalf.ge
    · rw [hhalf, Nat.cast_one, zpow_add₀ two_ne_zero]
      push_cast
      ring

/-- The first shift leaves the number of steps that the result takes. -/
theorem shiftToTargetExponent_spec {accuracy : Accuracy} (hq : 0 < q)
    (hrep : Represents (.ofMantissaAndAccuracy m accuracy) q)
    (he : e ≤ stepExponent (q * 2 ^ e)) :
    ∃ em, shiftToTargetExponent .binary64 m e accuracy = (em, stepExponent (q * 2 ^ e)) ∧
      Represents em (q * 2 ^ e / 2 ^ stepExponent (q * 2 ^ e)) := by
  obtain ⟨n, hn⟩ := Int.eq_ofNat_of_zero_le (sub_nonneg.2 he)
  refine ⟨ExtendedMantissa.ofMantissaAndAccuracy m accuracy >>> n, ?_, ?_⟩
  · rw [shiftToTargetExponent, shiftToExponent,
      targetExponent_eq_stepExponent hq hrep.between.1 hrep.between.2 he, hn]
    refine Prod.ext rfl ?_
    simp only [Int.toNat_natCast]
    omega
  · have hsteps : q * 2 ^ e / 2 ^ stepExponent (q * 2 ^ e) = q / 2 ^ n := by
      rw [← sub_add_cancel (stepExponent _) e, hn, zpow_add₀ two_ne_zero, zpow_natCast]
      field_simp
    rw [hsteps]
    exact hrep.shiftRight n

/-- **Rounding a result** gives a canonical double for the rounded number, as long as the result is
not given with an exponent that is too large. -/
theorem roundWithAccuracy_spec {accuracy : Accuracy} (s : Sign) (hq : 0 < q)
    (hrep : Represents (.ofMantissaAndAccuracy m accuracy) q)
    (he : e ≤ stepExponent (q * 2 ^ e)) :
    Canonical (roundWithAccuracy .binary64 s m e accuracy) ∧
      meaning (roundWithAccuracy .binary64 s m e accuracy) =
        .number (coefficient s * rounded (q * 2 ^ e)) := by
  have hpos : 0 < q * 2 ^ e := by positivity
  obtain ⟨em, hfirst, hem⟩ := shiftToTargetExponent_spec hq hrep he
  have hround := hem.roundedMantissa
  have hle : (em.roundedMantissa : ℤ) ≤ 2 ^ 53 :=
    hround ▸ halfEven_le (by push_cast; exact (div_step_lt hpos).le)
  have hfull : (2 ^ 52 : ℤ) ≤ em.roundedMantissa ∨ stepExponent (q * 2 ^ e) = -1074 := by
    rw [hround, or_iff_not_imp_right]
    exact fun hstep ↦ le_halfEven (by push_cast; exact le_div_step hpos hstep)
  obtain ⟨hsettled, hvalue⟩ := shiftToTargetExponent_exact (by exact_mod_cast hle)
    (le_stepExponent _) (hfull.imp_left fun h ↦ by exact_mod_cast h)
  have hrounded : (em.roundedMantissa : ℚ) * 2 ^ stepExponent (q * 2 ^ e) =
      rounded (q * 2 ^ e) := by
    rw [rounded, ← hround, Int.cast_natCast]
  rw [hrounded] at hvalue
  rw [roundWithAccuracy, hfirst]
  dsimp only
  split
  · rename_i hzero
    rw [hzero, Nat.cast_zero, zero_mul] at hvalue
    rw [← hvalue, mul_zero]
    exact ⟨trivial, rfl⟩
  · exact ⟨hsettled, congrArg (fun x ↦ Exact.number (coefficient s * x)) hvalue⟩

/-- **Rounding a result** whose exponent may be too large. -/
theorem round_spec (s : Sign) (hm : m ≠ 0) (e : ℤ) :
    Canonical (round .binary64 s m e) ∧
      meaning (round .binary64 s m e) = .number (coefficient s * rounded (m * 2 ^ e)) := by
  have hpos : (0 : ℚ) < m := by exact_mod_cast Nat.pos_of_ne_zero hm
  set n := (e - Format.binary64.targetExponent (totalExponent m e)).toNat with hn
  -- lowering the exponent makes the mantissa longer by as many bits
  have hsame : ((m <<< n : ℕ) : ℚ) * 2 ^ (e - n) = m * 2 ^ e := by
    rw [Nat.shiftLeft_eq, zpow_sub₀ two_ne_zero, zpow_natCast]
    push_cast
    field_simp
  have hstep : stepExponent (m * 2 ^ e) = max (m.log2 + e - 52) (-1074) := by
    rw [stepExponent, abs_of_pos (by positivity), log_eq hm le_rfl (by linarith)]
  have hround := roundWithAccuracy_spec s (q := (m <<< n : ℕ)) (e := e - n)
    (by rw [Nat.shiftLeft_eq]; push_cast; positivity) (represents_exact _) (by
      rw [hsame, hstep]
      rw [targetExponent_totalExponent] at hn
      omega)
  rw [hsame] at hround
  exact hround

theorem normalize_spec (m e : ℤ) (s : Sign) :
    Canonical (normalize .binary64 m e s) ∧
      meaning (normalize .binary64 m e s) = .number (rounded (m * 2 ^ e)) := by
  have hcast (k : ℤ) (hk : 0 < k) : ((k.toNat : ℕ) : ℚ) = k := by
    exact_mod_cast Int.toNat_of_nonneg hk.le
  rw [UnpackedFloat.normalize]
  rcases lt_trichotomy m 0 with hm | rfl | hm
  · rw [compare_lt_iff_lt.2 hm]
    have hround := round_spec .negative (m := (-m).toNat) (by omega) e
    rw [hcast _ (neg_pos.2 hm)] at hround
    refine ⟨hround.1, hround.2.trans ?_⟩
    rw [coefficient, Int.cast_neg, neg_mul (m : ℚ), rounded_neg, neg_one_mul, neg_neg]
  · refine ⟨trivial, ?_⟩
    simp [meaning]
  · rw [compare_gt_iff_gt.2 hm]
    have hround := round_spec .positive (m := m.toNat) (by omega) e
    rw [hcast _ hm] at hround
    refine ⟨hround.1, hround.2.trans ?_⟩
    rw [coefficient, one_mul]

/-! ### Packing -/

@[simp] theorem unpackSign_packComponents {spec : Format} {exponent mantissa} :
    unpackSign (packComponents spec s exponent mantissa) = s.toBitVec := by
  ext i hi
  obtain rfl : i = 0 := by omega
  simp [unpackSign, packComponents, BitVec.getLsbD_append, BitVec.getElem_append]

@[simp] theorem ofBitVec_toBitVec (s : Sign) : Sign.ofBitVec s.toBitVec = s := by
  cases s <;> rfl

theorem fits_iff (s : Sign) (m : ℕ) (e : ℤ) (hm : 0 < m) : Fits (.finite s m e hm) ↔ e ≤ 971 := by
  have hbias : (Format.binary64.exponentBias : ℤ) = 1023 := rfl
  have hbits : (Format.binary64.mantissaBitsWithoutImplicit : ℤ) = 52 := rfl
  rw [Fits, hbias, hbits, show 2 ^ Format.binary64.exponentBits = 2048 from rfl]
  omega

theorem append_implicit_bit (mantissa : BitVec 52) :
    (1#1 ++ mantissa).toNat = 2 ^ 52 + mantissa.toNat := by
  rw [BitVec.toNat_append, ← Nat.shiftLeft_add_eq_or_of_lt mantissa.isLt, Nat.shiftLeft_eq]
  simp

theorem unpack_normal (hm : 0 < m) (hsettled : Settled m e) (hfits : e ≤ 971)
    (hfull : 2 ^ 52 ≤ m) :
    UnpackedFloat.unpack .binary64
      (packComponents .binary64 s (BitVec.ofNat _ (e + 1075).toNat) (BitVec.ofNat _ m)) =
        .finite s m e hm := by
  obtain ⟨hlt, hmin, -⟩ := hsettled
  have hexponent : (BitVec.ofNat 11 (e + 1075).toNat).toNat = (e + 1075).toNat := by
    rw [BitVec.toNat_ofNat]
    omega
  have hmantissa : (1#1 ++ BitVec.ofNat 52 m).toNat = m := by
    rw [append_implicit_bit, BitVec.toNat_ofNat]
    omega
  have hzero : BitVec.ofNat 11 (e + 1075).toNat ≠ 0#11 := by
    intro h
    rw [h, BitVec.toNat_zero] at hexponent
    omega
  have hones : BitVec.ofNat 11 (e + 1075).toNat ≠ -1#11 := by
    intro h
    rw [h, show (-1#11).toNat = 2047 from rfl] at hexponent
    omega
  rw [UnpackedFloat.unpack]
  simp only [unpackMantissa_packComponents, unpackExponent_packComponents,
    unpackSign_packComponents, ofBitVec_toBitVec, hzero, hones, if_false, hexponent, hmantissa]
  congr 1
  show ((e + 1075).toNat : ℤ) - (1023 + 52) = e
  omega

theorem unpack_subnormal (hm : 0 < m) (hlt : m < 2 ^ 52) :
    UnpackedFloat.unpack .binary64 (packComponents .binary64 s 0#_ (BitVec.ofNat _ m)) =
      .finite s m (-1074) hm := by
  have hmantissa : (BitVec.ofNat 52 m).toNat = m := by
    rw [BitVec.toNat_ofNat]
    omega
  have hne : BitVec.ofNat 52 m ≠ 0#52 := by
    intro h
    rw [h, BitVec.toNat_zero] at hmantissa
    omega
  have hones : 0#11 ≠ -1#11 := by decide
  rw [UnpackedFloat.unpack]
  simp only [unpackMantissa_packComponents, unpackExponent_packComponents,
    unpackSign_packComponents, ofBitVec_toBitVec, hne, hones, if_false, if_true, hmantissa]
  rfl

/-- **Packing loses nothing** of a canonical double that is not too large. -/
theorem stored_eq_self (hf : Canonical f) (hfits : Fits f) : stored f = f := by
  cases f with
  | notANumber => exact stored_notANumber
  | infinity s => exact stored_infinity s
  | zero s => cases s <;> rfl
  | finite s m e hm =>
    have hsettled : Settled m e := hf
    have hle := (fits_iff s m e hm).1 hfits
    have hbiased : (e + Format.binary64.exponentBias +
        Format.binary64.mantissaBitsWithoutImplicit).toNat = (e + 1075).toNat :=
      congrArg Int.toNat (add_assoc e 1023 52)
    rw [Fits, hbiased] at hfits
    rw [stored_eq, UnpackedFloat.pack, hbiased]
    simp only [if_neg (Nat.not_le.2 hfits)]
    split
    · rename_i hlog
      have hlog : m.log2 = 52 := Nat.succ.inj hlog
      exact unpack_normal hm hsettled hle (hlog ▸ Nat.log2_self_le hm.ne')
    · rename_i hlog
      have hshort : m < 2 ^ 52 := by
        by_contra h
        have hlow := (Nat.le_log2 hm.ne').2 (not_lt.1 h)
        have hhigh := (Nat.log2_lt hm.ne').2 hsettled.lt
        exact hlog (show m.log2 + 1 = 53 by omega)
      obtain rfl : e = -1074 := hsettled.full.resolve_left (not_le.2 hshort)
      exact unpack_subnormal hm hshort

/-- What is unpacked from a double is canonical. -/
theorem canonical_value (a : Float) : Canonical (value a) := by
  have hbias : (Format.binary64.exponentBias : ℤ) = 1023 := rfl
  have hbits : (Format.binary64.mantissaBitsWithoutImplicit : ℤ) = 52 := rfl
  show Canonical (UnpackedFloat.unpack .binary64 a.toModel.toBits.toBitVec)
  rw [UnpackedFloat.unpack]
  generalize @unpackExponent .binary64 a.toModel.toBits.toBitVec = exponent
  have hmantissa := (@unpackMantissa .binary64 a.toModel.toBits.toBitVec).isLt
  have happend := append_implicit_bit (@unpackMantissa .binary64 a.toModel.toBits.toBitVec)
  dsimp only
  split
  · split <;> trivial
  · split
    · rename_i hzero
      split
      · trivial
      · refine ⟨by omega, ?_, .inr ?_⟩ <;> rw [hzero, hbias, hbits] <;> simp
    · rename_i hne
      have hpos : exponent.toNat ≠ 0 := fun h ↦ hne (BitVec.eq_of_toNat_eq h)
      refine ⟨?_, ?_, .inl ?_⟩
      · rw [happend]
        omega
      · rw [hbias, hbits]
        omega
      · rw [happend]
        omega

/-! ### What is stored -/

theorem coefficient_mul (s t : Sign) : coefficient (s * t) = coefficient s * coefficient t := by
  cases s <;> cases t
  · exact (neg_one_mul (-1 : ℚ)).trans (neg_neg 1) |>.symm
  · exact (mul_one (-1)).symm
  · exact (one_mul (-1)).symm
  · exact (one_mul 1).symm

theorem rounded_coefficient_mul (s : Sign) (q : ℚ) :
    rounded (coefficient s * q) = coefficient s * rounded q := by
  cases s
  · rw [coefficient, neg_one_mul, rounded_neg, neg_one_mul]
  · rw [coefficient, one_mul, one_mul]

theorem abs_coefficient_mul (s : Sign) (hq : 0 < q) : |coefficient s * q| = q := by
  cases s
  · rw [coefficient, neg_one_mul, abs_neg, abs_of_pos hq]
  · rw [coefficient, one_mul, abs_of_pos hq]

/-- The doubles with an exponent that is not too large are those below the limit. -/
theorem Settled.lt_doubleLimit_iff (h : Settled m e) : (m : ℚ) * 2 ^ e < doubleLimit ↔ e ≤ 971 := by
  have hpos : (0 : ℚ) < 2 ^ e := by positivity
  constructor
  · intro hlt
    by_contra! hlarge
    have hfull : (2 ^ 52 : ℚ) ≤ m := by exact_mod_cast h.full.resolve_right (by omega)
    refine absurd hlt (not_lt.2 ?_)
    calc
      doubleLimit ≤ 2 ^ ((52 : ℤ) + e) := zpow_le_zpow_right₀ one_le_two (by omega)
      _ = 2 ^ 52 * 2 ^ e := (two_pow_mul_zpow 52 e).symm
      _ ≤ m * 2 ^ e := by gcongr
  · intro hsmall
    have hlt : (m : ℚ) < 2 ^ 53 := by exact_mod_cast h.lt
    calc
      (m : ℚ) * 2 ^ e < 2 ^ 53 * 2 ^ e := by gcongr
      _ = 2 ^ ((53 : ℤ) + e) := two_pow_mul_zpow 53 e
      _ ≤ doubleLimit := zpow_le_zpow_right₀ one_le_two (by omega)

/-- **Storing a rounded number** gives the nearest double. -/
theorem meaning_stored (hf : Canonical f) (hmeaning : meaning f = .number (rounded q)) :
    meaning (stored f) = (Exact.number q).nearest := by
  cases f with
  | notANumber => cases hmeaning
  | infinity s => cases hmeaning
  | zero s =>
    rw [stored_eq_self hf trivial, hmeaning]
    have hzero : rounded q = 0 := (Exact.number.inj hmeaning).symm
    have hlt : |rounded q| < doubleLimit := by
      rw [hzero, abs_zero]
      exact zpow_pos two_pos _
    rw [Exact.nearest, if_pos hlt]
  | finite s m e hm =>
    have hsettled : Settled m e := hf
    have hrounded : coefficient s * (m * 2 ^ e) = rounded q := Exact.number.inj hmeaning
    have hpos : (0 : ℚ) < m * 2 ^ e := by positivity
    have habs : |rounded q| = m * 2 ^ e := hrounded ▸ abs_coefficient_mul s hpos
    by_cases hfits : Fits (.finite s m e hm)
    · rw [stored_eq_self hf hfits, hmeaning, Exact.nearest, if_pos]
      rw [habs, hsettled.lt_doubleLimit_iff]
      exact (fits_iff ..).1 hfits
    · rw [stored_finite_of_not_fits hfits, Exact.nearest, if_neg]
      · cases s
        · have : q < 0 := by
            by_contra! h
            have := rounded_nonneg h
            rw [coefficient] at hrounded
            linarith
          rw [decide_eq_true this]
          rfl
        · have : ¬ q < 0 := by
            intro h
            have := rounded_mono h.le
            rw [rounded_zero] at this
            rw [coefficient] at hrounded
            linarith
          rw [decide_eq_false this]
          rfl
      · rw [habs, hsettled.lt_doubleLimit_iff]
        exact fun h ↦ hfits ((fits_iff ..).2 h)

end Double

end NetOnChip
