import NetOnChip.Proofs.Random.Completes
import NetOnChip.Proofs.Scalar.Arithmetic

/-!
# Choices from random words are in range

The numbers that are drawn from a stream of random words are below their bounds, because the high
half of the product of a word and a bound is (`Chance.indexes_ofStream`). A double that is drawn
between two bounds is not below the lower one, also after its fraction of the distance was rounded
(`Chance.sampleBetween_completes`), and a coin can be tossed with every probability between zero and
one (`Chance.toss_completes`). So all choices are in range, whatever the patience is
(`Chance.inRange_ofStream`).
-/

namespace NetOnChip

namespace Chance

variable {σ α : Type} {bits bound : Nat} {draw : σ → Nat × σ} (patience : Nat)

/-! ### Numbers below a bound -/

theorem lt_of_search (hbound : 0 < bound) (hdraw : ∀ s, (draw s).1 < Nat.pow 2 bits) {count : Nat}
    {s : σ} {found : Nat × σ} (h : search bits bound draw count s = some found) :
    found.1 < bound := by
  induction count generalizing s with
  | zero => cases h
  | succ count ih =>
    simp only [search] at h
    split at h
    · cases h
      refine Nat.div_lt_of_lt_mul ?_
      exact Nat.mul_lt_mul_of_pos_right (hdraw s) hbound
    · exact ih h

theorem sample_completes (hbound : 0 < bound) (hdraw : ∀ s, (draw s).1 < Nat.pow 2 bits) :
    Draw.Completes (· < bound) (sample patience bits bound draw : Draw σ α Nat) := by
  intro s
  rw [sample, if_neg hbound.ne']
  split
  · exact Attempt.completes_ok (lt_of_search hbound hdraw ‹_›)
  · exact Attempt.completes_exhausted

/-- **Numbers from a stream of random words** are below their bounds. -/
theorem indexes_ofStream : (ofStream patience).Indexes where
  below hbound := sample_completes patience hbound fun s ↦ s.word.1.toNat_lt
  belowWide hbound := sample_completes patience hbound fun s ↦ s.doubleWord.1.toNat_lt

/-! ### Doubles between two bounds -/

/-- A random fraction is not negative. -/
theorem not_fraction_lt_zero (s : Stream) : ¬ (fraction s).1 < 0.0 := by
  have hword : ∀ w : UInt64, ¬ w.toFloat < 0.0 := fun w ↦ by
    rw [Double.lt_iff_exact, Double.exact_toFloat, ← Double.nearest_exact 0.0]
    refine Exact.not_nearest_lt_nearest ?_
    rw [Double.exact_zero, Exact.zero_eq_number, Exact.number_lt_number, not_lt]
    exact Nat.cast_nonneg _
  have hbits : Double.exact 4503599627370496.0 = .number 4503599627370496 := by
    show Exact.number (1 * ((2 ^ 52 : ℕ) * 2 ^ (0 : ℤ))) = _
    norm_num
  exact Double.not_div_lt_zero (hword _) hbits (by norm_num)

/-- A fraction of a distance, added to the lower bound, does not lead below it. -/
theorem not_interpolated_lt {u lo hi : Float} (hu : ¬ u < 0.0) (hlt : lo < hi)
    (hlo : lo.isFinite) (hhi : hi.isFinite) (hdistance : (hi - lo).isFinite) :
    ¬ u * (hi - lo) + lo < lo := by
  obtain ⟨p, hp, -⟩ := Double.exists_exact hlo
  obtain ⟨q, hq, -⟩ := Double.exists_exact hhi
  obtain ⟨d, hd, -⟩ := Double.exists_exact hdistance
  have hnonneg : ¬ hi - lo < 0.0 := by
    rw [Double.lt_iff_exact, hp, hq, Exact.number_lt_number] at hlt
    rw [Double.lt_iff_exact, Double.exact_sub, hp, hq, ← Double.nearest_exact 0.0]
    refine Exact.not_nearest_lt_nearest ?_
    rw [Exact.number_sub_number, Double.exact_zero, Exact.zero_eq_number, Exact.number_lt_number]
    linarith
  have hle : 0.0 ≤ hi - lo := by
    rw [Double.lt_iff_exact, hd, Double.exact_zero, Exact.zero_eq_number, Exact.number_lt_number,
      not_lt] at hnonneg
    rwa [Double.le_iff_exact, hd, Double.exact_zero, Exact.zero_eq_number, Exact.number_le_number]
  have hzero : ¬ u * (hi - lo) < 0.0 := by
    have hmul := Double.not_mul_lt_mul hu hle
    rw [Double.lt_iff_exact] at hmul ⊢
    rwa [Double.exact_mul 0.0, hd, Double.exact_zero, Exact.zero_eq_number,
      Exact.number_mul_number, zero_mul, ← Exact.zero_eq_number, ← Double.exact_zero,
      Double.nearest_exact] at hmul
  have hself : ¬ lo < lo := fun h ↦ Double.not_lt_of_le (Double.le_of_lt h) h
  have hadd := Double.not_add_lt_add hzero hself
  rw [Double.lt_iff_exact] at hadd ⊢
  rwa [Double.exact_add 0.0, hp, Double.exact_zero, Exact.zero_eq_number,
    Exact.number_add_number, zero_add, ← hp, Double.nearest_exact] at hadd

/-- **A double that is drawn between two bounds** is there. -/
theorem sampleBetween_completes {lo hi : Float} (hlt : lo < hi) (hlo : lo.isFinite)
    (hhi : hi.isFinite) (hdistance : (hi - lo).isFinite) :
    Draw.Completes (fun a ↦ lo ≤ a ∧ a < hi) (sampleBetween patience lo hi) := by
  have hsearch : ∀ count s found, searchBetween lo hi count s = some found →
      lo ≤ found.1 ∧ found.1 < hi := by
    intro count
    induction count with
    | zero => exact fun _ _ h ↦ nomatch h
    | succ count ih =>
      intro s found h
      simp only [searchBetween] at h
      split at h
      · rename_i hbelow
        cases h
        refine ⟨?_, hbelow⟩
        have hlow := not_interpolated_lt (not_fraction_lt_zero s) hlt hlo hhi hdistance
        rcases Double.le_or_isNaN_of_not_lt hlow with hle | hnone | hnone
        · exact hle
        · exact absurd hnone (by rw [(Double.isNaN_of_lt hbelow).1]; decide)
        · exact absurd hnone (by rw [(Double.isNaN_of_lt hlt).1]; decide)
      · exact ih _ _ h
  intro s
  rw [sampleBetween, if_pos ⟨hlt, hlo, hhi, hdistance⟩]
  split
  · exact Attempt.completes_ok (hsearch _ _ _ ‹_›)
  · exact Attempt.completes_exhausted

/-! ### Coins -/

/-- **A coin can be tossed** with every probability between zero and one. -/
theorem toss_completes {probability : Float} (h : 0.0 ≤ probability ∧ probability ≤ 1.0) :
    Draw.Completes (fun _ ↦ True) (toss probability) := by
  intro s
  rw [toss, if_pos h]
  split
  · exact Attempt.completes_ok trivial
  · exact Attempt.completes_ok trivial

/-- **A stream of random words** answers in range, whatever the patience is. -/
theorem inRange_ofStream : (ofStream patience).InRange where
  below := (indexes_ofStream patience).below
  belowWide := (indexes_ofStream patience).belowWide
  between hlo hhi hdistance hlt := sampleBetween_completes patience hlt hlo hhi hdistance
  coin hzero hone := toss_completes ⟨hzero, hone⟩
  climb _ _ := (sampleBetween_completes patience (by decide +kernel) (by decide +kernel)
    (by decide +kernel) (by decide +kernel)).bind fun _ _ ↦ Draw.completes_pure trivial

end Chance

end NetOnChip
