import Mathlib
import SimplexTableau.Decimal.Rounding

/-!
# Rounding to the nearest integer

The integer nearest to a rational number, the even one of two equally near, is unique, does not
decrease with the number and changes its sign with it. The rounding of quotients of natural numbers
finds it.
-/

namespace SimplexTableau.Decimal

/-- An integer nearest to a rational number, and the even one of two equally near. -/
structure NearestEven (q : ℚ) (k : ℤ) : Prop where
  near : 2 * |q - k| ≤ 1
  even : 2 * |q - k| = 1 → Even k

namespace NearestEven

variable {q r : ℚ} {k l : ℤ}

lemma bounds (h : NearestEven q k) : 2 * k - 1 ≤ 2 * q ∧ 2 * q ≤ 2 * k + 1 := by
  obtain ⟨hlow, hhigh⟩ := abs_le.mp (show |q - k| ≤ 1 / 2 by linarith [h.near])
  constructor <;> linarith

/-- Were a smaller integer nearest to a larger number, both would be halfway between the two
integers, and one of these is odd. -/
theorem mono (hq : NearestEven q k) (hr : NearestEven r l) (h : q ≤ r) : k ≤ l := by
  by_contra hlt
  have hstep : (l : ℚ) + 1 ≤ k := by exact_mod_cast Int.add_one_le_of_lt (not_le.mp hlt)
  obtain ⟨hqlow, -⟩ := hq.bounds
  obtain ⟨-, hrhigh⟩ := hr.bounds
  have hk : (k : ℚ) = l + 1 := by linarith
  have hqeq : 2 * |q - k| = 1 := by
    rw [show q - k = -(1 / 2) by linarith, abs_neg]
    norm_num
  have hreq : 2 * |r - l| = 1 := by
    rw [show r - l = 1 / 2 by linarith]
    norm_num
  have hnext : k = l + 1 := by exact_mod_cast hk
  have hodd := (hr.even hreq).add_one
  rw [← hnext] at hodd
  exact Int.not_even_iff_odd.mpr hodd (hq.even hqeq)

theorem unique (hk : NearestEven q k) (hl : NearestEven q l) : k = l :=
  le_antisymm (hk.mono hl le_rfl) (hl.mono hk le_rfl)

lemma neg (h : NearestEven q k) : NearestEven (-q) (-k) := by
  have habs : |-q - ((-k : ℤ) : ℚ)| = |q - k| := by
    rw [← abs_neg]
    push_cast
    ring_nf
  constructor
  · rw [habs]
    exact h.near
  · rw [habs]
    exact fun htie => (h.even htie).neg

lemma abs_le (h : NearestEven q k) (l : ℤ) : |q - k| ≤ |q - l| := by
  rcases eq_or_ne k l with rfl | hne
  · exact le_rfl
  · have hapart : (1 : ℚ) ≤ |(k : ℚ) - l| := by
      exact_mod_cast Int.one_le_abs (sub_ne_zero.mpr hne)
    have htriangle : |(k : ℚ) - l| ≤ |q - k| + |q - l| := by
      rw [abs_sub_comm q]
      exact abs_sub_le _ _ _
    linarith [h.near]

lemma eq_or_even (h : NearestEven q k) (heq : |q - k| = |q - l|) : l = k ∨ Even k := by
  refine or_iff_not_imp_left.mpr fun hne => h.even ?_
  have hapart : (1 : ℚ) ≤ |(l : ℚ) - k| := by
    exact_mod_cast Int.one_le_abs (sub_ne_zero.mpr hne)
  have htriangle : |(l : ℚ) - k| ≤ |q - l| + |q - k| := by
    rw [abs_sub_comm q]
    exact abs_sub_le _ _ _
  linarith [h.near]

lemma of_int (k : ℤ) : NearestEven k k := by
  constructor <;> simp

lemma le_of_lt (h : NearestEven q k) (hlt : 2 * q < 2 * l + 1) : k ≤ l := by
  have hcast : (k : ℚ) < l + 1 := by linarith [h.bounds.1]
  exact Int.le_of_lt_add_one (by exact_mod_cast hcast)

/-- Less than half a unit is left above the integer. -/
lemma of_low (hle : (k : ℚ) ≤ q) (hlow : 2 * q < 2 * k + 1) : NearestEven q k := by
  have hdown : |q - k| = q - k := abs_of_nonneg (by linarith)
  constructor
  · rw [hdown]
    linarith
  · intro htie
    rw [hdown] at htie
    linarith

/-- More than half a unit is left above the integer. -/
lemma of_high (hlt : q < k + 1) (hhigh : 2 * k + 1 < 2 * q) : NearestEven q (k + 1) := by
  have hup : |q - (k + 1 : ℤ)| = k + 1 - q := by
    rw [abs_sub_comm, Int.cast_add, Int.cast_one, abs_of_pos (by linarith)]
  constructor
  · rw [hup]
    linarith
  · intro htie
    rw [hup] at htie
    linarith

lemma of_half_of_even (hhalf : 2 * q = 2 * k + 1) (heven : Even k) : NearestEven q k := by
  have hdown : |q - k| = 1 / 2 := by
    rw [show q - k = 1 / 2 by linarith, abs_of_pos one_half_pos]
  exact ⟨by rw [hdown]; norm_num, fun _ => heven⟩

lemma of_half_of_odd (hhalf : 2 * q = 2 * k + 1) (hodd : Odd k) : NearestEven q (k + 1) := by
  have hup : |q - (k + 1 : ℤ)| = 1 / 2 := by
    rw [abs_sub_comm, Int.cast_add, Int.cast_one, show (k : ℚ) + 1 - q = 1 / 2 by linarith,
      abs_of_pos one_half_pos]
  exact ⟨by rw [hup]; norm_num, fun _ => hodd.add_one⟩

end NearestEven

section Quotients

variable {num den : ℕ}

lemma div_lt_natDiv_add_one (h : 0 < den) : (num / den : ℚ) < (num / den : ℕ) + 1 := by
  have hden : (0 : ℚ) < den := by exact_mod_cast h
  rw [div_lt_iff₀' hden]
  exact_mod_cast Nat.lt_mul_div_succ num h

lemma two_mul_div_eq (h : 0 < den) :
    2 * (num / den : ℚ) = 2 * (num / den : ℕ) + (2 * (num % den) : ℕ) / den := by
  have hsplit : (num : ℚ) = den * (num / den : ℕ) + (num % den : ℕ) := by
    exact_mod_cast (Nat.div_add_mod num den).symm
  have hden : (den : ℚ) ≠ 0 := by exact_mod_cast h.ne'
  conv_lhs => rw [hsplit]
  push_cast
  field_simp

lemma two_mul_div_lt_iff (h : 0 < den) :
    2 * (num / den : ℚ) < 2 * (num / den : ℕ) + 1 ↔ 2 * (num % den) < den := by
  have hden : (0 : ℚ) < den := by exact_mod_cast h
  rw [two_mul_div_eq h, add_lt_add_iff_left, div_lt_one hden, Nat.cast_lt]

lemma lt_two_mul_div_iff (h : 0 < den) :
    2 * (num / den : ℕ) + 1 < 2 * (num / den : ℚ) ↔ den < 2 * (num % den) := by
  have hden : (0 : ℚ) < den := by exact_mod_cast h
  rw [two_mul_div_eq h, add_lt_add_iff_left, one_lt_div hden, Nat.cast_lt]

lemma two_mul_div_eq_iff (h : 0 < den) :
    2 * (num / den : ℚ) = 2 * (num / den : ℕ) + 1 ↔ 2 * (num % den) = den := by
  have hden : (den : ℚ) ≠ 0 := by exact_mod_cast h.ne'
  rw [two_mul_div_eq h, add_right_inj, div_eq_one_iff_eq hden, Nat.cast_inj]

lemma natDiv_lt_div_iff (h : 0 < den) :
    ((num / den : ℕ) : ℚ) < num / den ↔ num % den ≠ 0 := by
  have hden : (0 : ℚ) < den := by exact_mod_cast h
  rw [← mul_lt_mul_iff_right₀ two_pos, two_mul_div_eq h, lt_add_iff_pos_right,
    div_pos_iff_of_pos_right hden, Nat.cast_pos]
  omega

end Quotients

/-- A quotient is rounded to the nearest integer. -/
theorem nearestEven_roundHalfEven (num : ℕ) {den : ℕ} (h : 0 < den) :
    NearestEven (num / den) (roundHalfEven num den : ℕ) := by
  have hle : ((num / den : ℕ) : ℚ) ≤ num / den := Nat.cast_div_le
  have hlt : (num / den : ℚ) < (num / den : ℕ) + 1 := div_lt_natDiv_add_one h
  unfold roundHalfEven
  rcases lt_trichotomy (2 * (num % den)) den with hlow | heq | hhigh
  · rw [if_pos hlow]
    exact .of_low hle ((two_mul_div_lt_iff h).mpr hlow)
  · have hhalf := (two_mul_div_eq_iff h).mpr heq
    rw [if_neg heq.not_lt, if_neg heq.not_gt]
    split_ifs with heven
    · exact .of_half_of_even hhalf (by exact_mod_cast Nat.even_iff.mpr heven)
    · have hodd : Odd (num / den) := Nat.odd_iff.mpr (Nat.mod_two_ne_zero.mp heven)
      exact .of_half_of_odd hhalf (by exact_mod_cast hodd)
  · rw [if_neg hhigh.not_gt, if_pos hhigh]
    exact .of_high hlt ((lt_two_mul_div_iff h).mpr hhigh)

end SimplexTableau.Decimal
