import SimplexTableau.Proofs.NearestEven
import SimplexTableau.Proofs.Rounding

/-!
# Mantissas with the places that were dropped

Dropping binary places of a mantissa keeps a bit for the first place dropped and one for all the
others. Half a unit is the only remainder at which a tie is possible, so the two bits are enough to
find the nearest integer.
-/

namespace SimplexTableau

namespace Double

open Float.Model (UnpackedFloat)
open Float.Model.UnpackedFloat
open SimplexTableau.Decimal

/-- A mantissa that stands for a number: the integral part, a bit that says whether half a unit or
more is left, and a bit that says whether anything other than that half is left. -/
structure Represents (em : ExtendedMantissa) (y : ℚ) : Prop where
  le : (em.mantissa : ℚ) ≤ y
  lt : y < em.mantissa + 1
  round : em.roundBit = true ↔ 2 * em.mantissa + 1 ≤ 2 * y
  sticky : em.stickyBit = true ↔ y ≠ em.mantissa ∧ 2 * y ≠ 2 * em.mantissa + 1

section Mantissas

variable {em : ExtendedMantissa} {y : ℚ}

lemma represents_exact (m : ℕ) :
    Represents (ExtendedMantissa.ofMantissaAndAccuracy m .exact) m := by
  constructor <;> simp [ExtendedMantissa.ofMantissaAndAccuracy]

lemma Represents.bits_iff (h : Represents em y) :
    (em.roundBit || em.stickyBit) = true ↔ y ≠ em.mantissa := by
  rw [Bool.or_eq_true, h.round, h.sticky]
  constructor
  · rintro (hround | hsticky) heq
    · linarith
    · exact hsticky.1 heq
  · intro hne
    by_cases hhalf : 2 * y = 2 * em.mantissa + 1
    · exact .inl hhalf.ge
    · exact .inr ⟨hne, hhalf⟩

/-- The last place of the mantissa becomes the bit for the first place dropped. -/
lemma Represents.shiftRightOne (h : Represents em y) : Represents em.shiftRightOne (y / 2) := by
  have hle := h.le
  have hlt := h.lt
  have hbits := h.bits_iff
  have hsplit : (em.mantissa : ℚ) = 2 * (em.mantissa / 2 : ℕ) + (em.mantissa % 2 : ℕ) := by
    exact_mod_cast (Nat.div_add_mod em.mantissa 2).symm
  unfold ExtendedMantissa.shiftRightOne
  obtain hlast | hlast := Nat.mod_two_eq_zero_or_one em.mantissa
  · rw [hlast, Nat.cast_zero, add_zero] at hsplit
    refine ⟨by linarith, by linarith, ?_, ?_⟩
    · simp only [hlast, bne_self_eq_false, Bool.false_eq_true, false_iff, not_le]
      linarith
    · rw [hbits, hsplit]
      refine ⟨fun hne => ⟨fun heq => hne (by linarith), by linarith⟩, fun hne heq => ?_⟩
      exact hne.1 (by linarith)
  · rw [hlast, Nat.cast_one] at hsplit
    refine ⟨by linarith, by linarith, ?_, ?_⟩
    · simp only [hlast, Nat.one_ne_zero, bne_iff_ne, ne_eq, not_false_eq_true, true_iff]
      linarith
    · rw [hbits, hsplit]
      refine ⟨fun hne => ⟨by linarith, fun heq => hne (by linarith)⟩, fun hne heq => ?_⟩
      exact hne.2 (by linarith)

lemma Represents.shiftRight (h : Represents em y) (k : ℕ) : Represents (em >>> k) (y / 2 ^ k) := by
  induction k with
  | zero =>
    rw [pow_zero, div_one]
    exact h
  | succ k ih =>
    rw [shiftRight_succ, pow_succ, ← div_div]
    exact ih.shiftRightOne

/-- The two bits decide which mantissa is nearest. -/
theorem Represents.nearestEven (h : Represents em y) : NearestEven y em.roundedMantissa := by
  obtain ⟨m, round, sticky⟩ := em
  obtain ⟨hle, hlt, hround, hsticky⟩ := h
  have hcases : ExtendedMantissa.roundedMantissa ⟨m, round, sticky⟩ =
      if round then if sticky then m + 1 else m + m % 2 else m := by
    cases round <;> cases sticky <;> rfl
  rw [hcases]
  cases round with
  | false =>
    have hlow : 2 * y < 2 * m + 1 := by simpa using hround
    exact .of_low hle hlow
  | true =>
    have hhigh : 2 * m + 1 ≤ 2 * y := by simpa using hround
    rw [if_pos rfl]
    cases sticky with
    | true =>
      have hne : 2 * y ≠ 2 * m + 1 := (hsticky.mp rfl).2
      exact .of_high hlt (lt_of_le_of_ne hhigh hne.symm)
    | false =>
      have hhalf : 2 * y = 2 * m + 1 := by
        by_contra hne
        exact Bool.false_ne_true (hsticky.mpr ⟨by rintro rfl; linarith, hne⟩)
      rw [if_neg Bool.false_ne_true]
      obtain hlast | hlast := Nat.mod_two_eq_zero_or_one m
      · rw [hlast]
        exact .of_half_of_even hhalf (by exact_mod_cast Nat.even_iff.mpr hlast)
      · rw [hlast]
        exact .of_half_of_odd hhalf (by exact_mod_cast Nat.odd_iff.mpr hlast)

lemma represents_low {m : ℕ} (hlt : m < y) (hlow : 2 * y < 2 * m + 1) :
    Represents (ExtendedMantissa.ofMantissaAndAccuracy m (.inexact .lt)) y := by
  have hnext : y < m + 1 := by linarith
  exact ⟨hlt.le, hnext, iff_of_false Bool.false_ne_true hlow.not_ge,
    iff_of_true rfl ⟨hlt.ne', hlow.ne⟩⟩

lemma represents_half {m : ℕ} (hhalf : 2 * y = 2 * m + 1) :
    Represents (ExtendedMantissa.ofMantissaAndAccuracy m (.inexact .eq)) y := by
  have hle : m ≤ y := by linarith
  have hnext : y < m + 1 := by linarith
  exact ⟨hle, hnext, iff_of_true rfl hhalf.ge,
    iff_of_false Bool.false_ne_true fun hne => hne.2 hhalf⟩

lemma represents_high {m : ℕ} (hnext : y < m + 1) (hhigh : 2 * m + 1 < 2 * y) :
    Represents (ExtendedMantissa.ofMantissaAndAccuracy m (.inexact .gt)) y := by
  have hlt : m < y := by linarith
  exact ⟨hlt.le, hnext, iff_of_true rfl hhigh.le, iff_of_true rfl ⟨hlt.ne', hhigh.ne'⟩⟩

lemma represents_fraction (num : ℕ) {den : ℕ} (h : 0 < den) :
    Represents (ExtendedMantissa.ofMantissaAndAccuracy (num / den)
      (accuracyOfFraction (num % den) den)) (num / den) := by
  unfold accuracyOfFraction
  split_ifs with hzero
  · have hexact : (num / den : ℚ) = (num / den : ℕ) :=
      (Nat.cast_div_charZero (Nat.dvd_of_mod_eq_zero hzero)).symm
    rw [hexact]
    exact represents_exact _
  · rcases lt_trichotomy (2 * (num % den)) den with hlow | heq | hhigh
    · rw [compare_lt_iff_lt.mpr hlow]
      exact represents_low ((natDiv_lt_div_iff h).mpr hzero) ((two_mul_div_lt_iff h).mpr hlow)
    · rw [compare_eq_iff_eq.mpr heq]
      exact represents_half ((two_mul_div_eq_iff h).mpr heq)
    · rw [compare_gt_iff_gt.mpr hhigh]
      exact represents_high (div_lt_natDiv_add_one h) ((lt_two_mul_div_iff h).mpr hhigh)

end Mantissas

end Double

end SimplexTableau
