import Mathlib
import NetOnChip.Scalar

/-!
# Doubles that are not numbers

A double stands for a finite number, for one of two infinities, or for no number at all (`value`).
What the arithmetic and the comparisons of doubles make of the last two is worked out here, from the
logical model of doubles:

* a difference or a product of finite doubles may overflow, but it always stands for something
  (`isNaN_sub_of_isFinite_left`, `isNaN_mul_of_isFinite`);
* of two doubles one is less than the other one or at least as large, unless one of them stands for
  no number (`le_or_isNaN_of_not_lt`). So a value that is not found to be too large need not be
  small enough.
-/

namespace NetOnChip

namespace Double

open Float.Model Float.Model.UnpackedFloat

variable {a b : Float} {f g : UnpackedFloat}

/-! ### What doubles stand for -/

/-- What a double stands for. -/
def value (a : Float) : UnpackedFloat :=
  a.toModel.unpack

/-- What is left of a result when it is stored in a double. -/
def stored (f : UnpackedFloat) : UnpackedFloat :=
  (Float.Model.pack f).unpack

theorem value_sub (a b : Float) : value (a - b) = stored (.sub .binary64 (value a) (value b)) := rfl

theorem value_mul (a b : Float) : value (a * b) = stored (.mul .binary64 (value a) (value b)) := rfl

theorem value_abs (a : Float) : value a.abs = stored (value a).abs := rfl

theorem isNaN_eq (a : Float) : a.isNaN = (value a).isNaN := rfl

theorem isInf_eq (a : Float) : a.isInf = (value a).isInf := rfl

theorem isFinite_eq (a : Float) : a.isFinite = (value a).isFinite := rfl

theorem lt_iff : a < b ↔ (value a).compare (value b) = some .lt := by
  show decide (a.toModel < b.toModel) = true ↔ _
  rw [decide_eq_true_iff]
  exact beq_iff_eq

theorem le_iff : a ≤ b ↔ ∃ o, (value a).compare (value b) = some o ∧ o.isLE = true := by
  show decide (a.toModel ≤ b.toModel) = true ↔ _
  rw [decide_eq_true_iff]
  exact Option.any_eq_true _ _

/-! ### Storing a result -/

theorem stored_eq (f : UnpackedFloat) :
    stored f = UnpackedFloat.unpack .binary64 (UnpackedFloat.pack .binary64 f) := rfl

theorem stored_notANumber : stored .notANumber = .notANumber :=
  @unpack_packedNaN .binary64

theorem stored_infinity (s : Sign) : stored (.infinity s) = .infinity s := by
  cases s <;> rfl

theorem isNaN_of_isFinite (h : f.isFinite) : f.isNaN = false := by
  cases f <;> first | rfl | cases h

/-- Bits whose exponent is not the largest one stand for a number. -/
theorem isFinite_unpack {bits : BitVec Format.binary64.numBits}
    (h : unpackExponent bits ≠ -1#_) : (UnpackedFloat.unpack .binary64 bits).isFinite = true := by
  rw [UnpackedFloat.unpack]
  simp only [if_neg h]
  split
  · split <;> rfl
  · rfl

/-- The exponent of a result is not too large for a double. -/
def Fits : UnpackedFloat → Prop
  | .finite _ _ e _ =>
    (e + Format.binary64.exponentBias + Format.binary64.mantissaBitsWithoutImplicit).toNat + 1 <
      2 ^ Format.binary64.exponentBits
  | _ => True

/-- A result that stands for a number is stored as a number if its exponent is not too large. -/
theorem isFinite_stored (h : f.isFinite) (hfits : Fits f) : (stored f).isFinite := by
  cases f with
  | notANumber => cases h
  | infinity s => cases h
  | zero s => cases s <;> rfl
  | finite s m e hm =>
    rw [Fits] at hfits
    rw [stored_eq, UnpackedFloat.pack]
    generalize (e + Format.binary64.exponentBias +
      Format.binary64.mantissaBitsWithoutImplicit).toNat = biased at hfits ⊢
    simp only [if_neg (Nat.not_le.2 hfits)]
    have hbiased : biased + 1 < 2048 := hfits
    split
    · refine isFinite_unpack ?_
      rw [unpackExponent_packComponents]
      intro heq
      have hexponent : biased % 2048 = 2047 := congrArg BitVec.toNat heq
      omega
    · refine isFinite_unpack ?_
      rw [unpackExponent_packComponents]
      decide

/-- A result with a larger exponent is stored as an infinity. -/
theorem stored_finite_of_not_fits {s : Sign} {m : Nat} {e : Int} {hm : 0 < m}
    (h : ¬ Fits (.finite s m e hm)) : stored (.finite s m e hm) = .infinity s := by
  rw [Fits, Nat.not_lt] at h
  rw [stored_eq, UnpackedFloat.pack, if_pos h]
  exact stored_infinity s

/-- **Storing a result** neither makes nor loses a value that stands for no number. -/
theorem isNaN_stored (f : UnpackedFloat) : (stored f).isNaN = f.isNaN := by
  cases f with
  | notANumber => rw [stored_notANumber]
  | infinity s => rw [stored_infinity]
  | zero s => exact isNaN_of_isFinite (isFinite_stored rfl trivial)
  | finite s m e hm =>
    by_cases hfits : Fits (.finite s m e hm)
    · exact isNaN_of_isFinite (isFinite_stored rfl hfits)
    · rw [stored_finite_of_not_fits hfits]
      rfl

/-- The exponent of a double is not too large. -/
theorem fits_value (a : Float) : Fits (value a) := by
  have hbias : (Format.binary64.exponentBias : Int) = 1023 := rfl
  have hbits : (Format.binary64.mantissaBitsWithoutImplicit : Int) = 52 := rfl
  show Fits (UnpackedFloat.unpack .binary64 a.toModel.toBits.toBitVec)
  rw [UnpackedFloat.unpack]
  generalize @unpackExponent .binary64 a.toModel.toBits.toBitVec = exponent
  have hlt : exponent.toNat < 2048 := exponent.isLt
  dsimp only
  split
  · split <;> trivial
  · rename_i hexponent
    have hne : exponent.toNat ≠ 2047 := fun h ↦ hexponent (BitVec.eq_of_toNat_eq h)
    split
    · rename_i hzero
      split
      · trivial
      · show _ < 2048
        rw [hzero, hbias, hbits]
        simp
    · show _ < 2048
      rw [hbias, hbits]
      omega

/-! ### Arithmetic -/

/-- A finite double is a zero or has a mantissa. -/
theorem isFinite_cases (ha : a.isFinite) :
    (∃ s, value a = .zero s) ∨ ∃ s m e hm, value a = .finite s m e hm := by
  rw [isFinite_eq] at ha
  cases hvalue : value a with
  | zero s => exact .inl ⟨s, rfl⟩
  | finite s m e hm => exact .inr ⟨s, m, e, hm, rfl⟩
  | notANumber | infinity _ =>
    rw [hvalue] at ha
    cases ha

theorem isFinite_roundWithAccuracy (s : Sign) (m : Nat) (e : Int) (accuracy : Accuracy) :
    (roundWithAccuracy .binary64 s m e accuracy).isFinite = true := by
  rw [roundWithAccuracy]
  dsimp only
  split <;> rfl

theorem isFinite_normalize (m e : Int) (s : Sign) :
    (UnpackedFloat.normalize .binary64 m e s).isFinite = true := by
  rw [UnpackedFloat.normalize]
  split
  · exact isFinite_roundWithAccuracy ..
  · rfl
  · exact isFinite_roundWithAccuracy ..

/-- **A difference** from a finite double stands for something, as far as the double that is taken
off does. -/
theorem isNaN_sub_of_isFinite_left (ha : a.isFinite) (b : Float) : (a - b).isNaN = b.isNaN := by
  rw [isNaN_eq, isNaN_eq, value_sub, isNaN_stored]
  obtain ⟨s, hs⟩ | ⟨s, m, e, hm, hs⟩ := isFinite_cases ha <;> rw [hs] <;> cases value b with
  | zero s' => cases s <;> cases s' <;> rfl
  | finite s' m' e' hm' => first | rfl | exact isNaN_of_isFinite (isFinite_normalize ..)
  | notANumber | infinity _ => rfl

/-- **A difference** with a finite double taken off stands for something, as far as the other double
does. -/
theorem isNaN_sub_of_isFinite_right (a : Float) (hb : b.isFinite) : (a - b).isNaN = a.isNaN := by
  rw [isNaN_eq, isNaN_eq, value_sub, isNaN_stored]
  obtain ⟨s, hs⟩ | ⟨s, m, e, hm, hs⟩ := isFinite_cases hb <;> rw [hs] <;> cases value a with
  | zero s' => cases s <;> cases s' <;> rfl
  | finite s' m' e' hm' => first | rfl | exact isNaN_of_isFinite (isFinite_normalize ..)
  | notANumber | infinity _ => rfl

/-- **A product** of finite doubles may overflow, but it stands for something. -/
theorem isNaN_mul_of_isFinite (ha : a.isFinite) (hb : b.isFinite) : (a * b).isNaN = false := by
  rw [isNaN_eq, value_mul, isNaN_stored]
  obtain ⟨s, hs⟩ | ⟨s, m, e, hm, hs⟩ := isFinite_cases ha <;>
    obtain ⟨s', hs'⟩ | ⟨s', m', e', hm', hs'⟩ := isFinite_cases hb <;> rw [hs, hs']
  · rfl
  · rfl
  · rfl
  · exact isNaN_of_isFinite (isFinite_roundWithAccuracy ..)

theorem isNaN_abs (a : Float) : a.abs.isNaN = a.isNaN := by
  rw [isNaN_eq, isNaN_eq, value_abs, isNaN_stored]
  cases value a <;> rfl

theorem isFinite_abs (ha : a.isFinite) : a.abs.isFinite := by
  rw [isFinite_eq, value_abs]
  obtain ⟨s, hs⟩ | ⟨s, m, e, hm, hs⟩ := isFinite_cases ha <;> rw [hs]
  · exact isFinite_stored rfl trivial
  · -- the sign has no part in whether the exponent is too large
    exact isFinite_stored rfl (show Fits (.finite s m e hm) from hs ▸ fits_value a)

/-! ### Comparisons -/

theorem then_compare_swap (e e' : Int) (m m' : Nat) :
    (compare e' e).then (compare m' m) = ((compare e e').then (compare m m')).swap := by
  rw [Ordering.swap_then, ← Std.OrientedCmp.eq_swap, ← Std.OrientedCmp.eq_swap]

/-- What stands for something can be compared, in either direction. -/
theorem exists_compare (hf : f.isNaN = false) (hg : g.isNaN = false) :
    ∃ o, f.compare g = some o ∧ g.compare f = some o.swap := by
  cases f with
  | notANumber => cases hf
  | infinity s =>
    cases g with
    | notANumber => cases hg
    | infinity s' => cases s <;> cases s' <;> exact ⟨_, rfl, rfl⟩
    | zero s' => cases s <;> exact ⟨_, rfl, rfl⟩
    | finite s' m' e' hm' => cases s <;> exact ⟨_, rfl, rfl⟩
  | zero s =>
    cases g with
    | notANumber => cases hg
    | infinity s' => cases s' <;> exact ⟨_, rfl, rfl⟩
    | zero s' => exact ⟨_, rfl, rfl⟩
    | finite s' m' e' hm' => cases s' <;> exact ⟨_, rfl, rfl⟩
  | finite s m e hm =>
    cases g with
    | notANumber => cases hg
    | infinity s' => cases s' <;> exact ⟨_, rfl, rfl⟩
    | zero s' => cases s <;> exact ⟨_, rfl, rfl⟩
    | finite s' m' e' hm' =>
      cases s <;> cases s'
      · exact ⟨_, rfl, congrArg (fun o : Ordering ↦ some o.swap) (then_compare_swap ..)⟩
      · exact ⟨_, rfl, rfl⟩
      · exact ⟨_, rfl, rfl⟩
      · exact ⟨_, rfl, congrArg some (then_compare_swap ..)⟩

/-- **One of two doubles is the smaller one**, unless one of them stands for no number. -/
theorem le_or_isNaN_of_not_lt (h : ¬ a < b) : b ≤ a ∨ a.isNaN = true ∨ b.isNaN = true := by
  cases ha : a.isNaN with
  | true => exact .inr (.inl rfl)
  | false =>
    cases hb : b.isNaN with
    | true => exact .inr (.inr rfl)
    | false =>
      obtain ⟨o, hab, hba⟩ := exists_compare (f := value a) (g := value b) ha hb
      refine .inl (le_iff.2 ⟨_, hba, ?_⟩)
      rw [lt_iff, hab] at h
      cases o with
      | lt => exact absurd rfl h
      | eq | gt => rfl

theorem le_of_lt (h : a < b) : a ≤ b :=
  le_iff.2 ⟨_, lt_iff.1 h, rfl⟩

/-- What stands for something is as large as itself. -/
theorem le_self (h : a.isNaN = false) : a ≤ a := by
  obtain ⟨o, ho, hswap⟩ := exists_compare (f := value a) (g := value a) h h
  refine le_iff.2 ⟨o, ho, ?_⟩
  have hsame : o = o.swap := Option.some.inj (ho.symm.trans hswap)
  cases o with
  | eq => rfl
  | lt | gt => cases hsame

/-- A double that is smaller or larger than another one stands for something. -/
theorem isNaN_of_lt (h : a < b) : a.isNaN = false ∧ b.isNaN = false := by
  rw [lt_iff] at h
  rw [isNaN_eq, isNaN_eq]
  cases ha : value a <;> cases hb : value b <;> first
    | exact ⟨rfl, rfl⟩
    | (rw [ha, hb] at h; cases h)

theorem not_lt_of_le (h : a ≤ b) : ¬ b < a := by
  obtain ⟨o, hab, hle⟩ := le_iff.1 h
  intro hba
  obtain ⟨hb, ha⟩ := isNaN_of_lt hba
  obtain ⟨o', hba', hab'⟩ := exists_compare (f := value b) (g := value a) hb ha
  rw [lt_iff, hba'] at hba
  obtain rfl := Option.some.inj hba
  obtain rfl := Option.some.inj (hab.symm.trans hab')
  cases hle

/-- A larger double is taken only if it stands for something. -/
theorem isNaN_larger (a : Float) (hb : b.isNaN = false) : (larger a b).isNaN = false := by
  rw [larger, hb, if_neg Bool.false_ne_true]
  split
  · exact (isNaN_of_lt ‹_›).2
  · exact hb

theorem larger_of_isNaN (ha : a.isNaN = true) (hb : b.isNaN = false) : larger a b = b := by
  rw [larger, hb, if_neg Bool.false_ne_true, if_neg fun h ↦ ?_]
  exact Bool.false_ne_true ((isNaN_of_lt h).2.symm.trans ha)

/-- What is neither negative nor positive is a zero. -/
theorem value_of_not_pos (h : 0.0 ≤ a) (hpos : ¬ 0.0 < a) : ∃ s, value a = .zero s := by
  have hzero : value 0.0 = .zero .positive := by rfl
  obtain ⟨o, ho, hle⟩ := le_iff.1 h
  rw [lt_iff, ho] at hpos
  rw [hzero] at ho
  cases ha : value a with
  | zero s => exact ⟨s, rfl⟩
  | notANumber =>
    rw [ha] at ho
    cases ho
  | infinity s | finite s m e hm =>
    rw [ha] at ho
    cases s <;> cases ho
    · cases hle
    · exact absurd rfl hpos

/-! ### Infinities -/

theorem isInf_cases (ha : a.isInf) : ∃ s, value a = .infinity s := by
  rw [isInf_eq] at ha
  cases hvalue : value a with
  | infinity s => exact ⟨s, rfl⟩
  | notANumber | zero _ | finite _ _ _ _ =>
    rw [hvalue] at ha
    cases ha

theorem value_abs_of_isInf (ha : a.isInf) : value a.abs = .infinity .positive := by
  obtain ⟨s, hs⟩ := isInf_cases ha
  rw [value_abs, hs]
  exact stored_infinity .positive

theorem isInf_sub_of_isInf_left (ha : a.isInf) (hb : b.isFinite) : (a - b).isInf := by
  obtain ⟨s, hs⟩ := isInf_cases ha
  rw [isInf_eq, value_sub, hs]
  obtain ⟨s', hs'⟩ | ⟨s', m, e, hm, hs'⟩ := isFinite_cases hb <;> rw [hs'] <;>
    exact congrArg UnpackedFloat.isInf (stored_infinity s)

theorem isInf_sub_of_isInf_right (ha : a.isFinite) (hb : b.isInf) : (a - b).isInf := by
  obtain ⟨s, hs⟩ := isInf_cases hb
  rw [isInf_eq, value_sub, hs]
  obtain ⟨s', hs'⟩ | ⟨s', m, e, hm, hs'⟩ := isFinite_cases ha <;> rw [hs'] <;>
    exact congrArg UnpackedFloat.isInf (stored_infinity (-s))

/-- What is not less than infinity is infinite, if it stands for something. -/
theorem value_of_not_lt (h : ¬ a < b) (ha : a.isNaN = false)
    (hb : value b = .infinity .positive) : value a = .infinity .positive := by
  rw [lt_iff, hb] at h
  rw [isNaN_eq] at ha
  cases hvalue : value a with
  | notANumber =>
    rw [hvalue] at ha
    cases ha
  | infinity s =>
    cases s with
    | negative => exact absurd (by rw [hvalue]; rfl) h
    | positive => rfl
  | zero s => exact absurd (by rw [hvalue]; rfl) h
  | finite s m e hm => exact absurd (by rw [hvalue]; cases s <;> rfl) h

/-- Nothing is larger than infinity. -/
theorem value_larger_of_infinity (ha : value a = .infinity .positive) (b : Float) :
    value (larger a b) = .infinity .positive := by
  rw [larger]
  split
  · exact ha
  · rename_i hb
    split
    · exact ha
    · rename_i h
      exact value_of_not_lt h (Bool.not_eq_true _ ▸ hb) ha

/-- No part of infinity is no number. -/
theorem isNaN_mul_infinity {s : Sign} (ha : value a = .zero s)
    (hb : value b = .infinity .positive) : (a * b).isNaN = true := by
  rw [isNaN_eq, value_mul, isNaN_stored, ha, hb]
  rfl

end Double

end NetOnChip
