import SimplexTableau.Decimal.Numeral
import SimplexTableau.Proofs.NearestOperations

/-!
# Decimals and their nearest doubles

Digits with a power of ten are read as the nearest double. Up to fifteen digits and small powers the
number is a product or a quotient of two doubles that are exact, and otherwise one of two integers;
either way it is rounded once. Far beyond the range of doubles, and far below the smallest of them,
the number of digits is enough to know the answer.
-/

namespace SimplexTableau

namespace Double

open Float.Model (UnpackedFloat Format)
open Float.Model.UnpackedFloat
open SimplexTableau.Decimal (NearestEven)

section Extremes

variable {q : ℚ} {x : Float}

lemma nearestEven_zero {y : ℚ} (hnonneg : 0 ≤ y) (hy : y ≤ 1 / 2) : NearestEven y 0 := by
  refine ⟨?_, fun _ => Even.zero⟩
  have habs : |y - ((0 : ℤ) : ℚ)| = y := by
    simpa using hnonneg
  rw [habs]
  linarith

/-- Half of the smallest double, and what is below it, is rounded to zero. -/
lemma isNearest_zero (hnonneg : 0 ≤ q) (hq : q ≤ 2 ^ (-1075 : ℤ))
    (hx : x.toModel.unpack = .zero .positive) : IsNearest q x := by
  have hunit := Units.unit_pos (-1074)
  have hhalf : (2 : ℚ) ^ (-1075 : ℤ) = 1 / 2 * 2 ^ (-1074 : ℤ) := by
    rw [show (-1075 : ℤ) = -1 + -1074 from rfl, zpow_add₀ (by norm_num : (2 : ℚ) ≠ 0)]
    norm_num
  rw [hhalf] at hq
  have hunits : Units q 0 (-1074) := by
    have hnearest := nearestEven_zero (by positivity) ((div_le_iff₀ hunit).mpr hq)
    refine ⟨le_rfl, hnearest, ?_, .inl rfl⟩
    generalize (2 : ℚ) ^ (-1074 : ℤ) = unit at *
    linarith
  exact hunits.isNearest hnonneg hx

lemma isNearest_infinity (hq : rangeEnd ≤ q) (hx : x.toModel.unpack = .infinity .positive) :
    IsNearest q x := by
  refine .above hq ?_
  rw [value, hx]
  rfl

lemma rangeEnd_le : rangeEnd ≤ 10 ^ (309 : ℤ) := by
  have hpow : (2 ^ 1024 : ℚ) ≤ 10 ^ 309 := by
    exact_mod_cast (show 2 ^ 1024 ≤ 10 ^ 309 by decide +kernel)
  have hle : rangeEnd ≤ 2 ^ 1024 := sub_le_self _ (by positivity)
  exact hle.trans (by exact_mod_cast hpow)

lemma pow_le_tiny : (10 : ℚ) ^ (-324 : ℤ) ≤ 2 ^ (-1075 : ℤ) := by
  have hpow : (2 ^ 1075 : ℚ) ≤ 10 ^ 324 := by
    exact_mod_cast (show 2 ^ 1075 ≤ 10 ^ 324 by decide +kernel)
  rw [zpow_neg, zpow_neg]
  exact inv_anti₀ (by positivity) (by exact_mod_cast hpow)

end Extremes

section Decimals

variable {x : Float} {m e : ℕ}

lemma exactly_powerOfTen : ∀ e : Fin 23,
    Exactly (10 ^ e.val) Float.exactlyRepresentablePowersOfTen[e].toModel.unpack := by
  decide +kernel

/-- Beyond what is exact, a quotient or a product of integers is rounded. -/
lemma isNearest_integers (hm : 0 < m) (e : ℤ) (hx : x.toModel.unpack =
    unpack .binary64 (pack .binary64 (UnpackedFloat.ofScientific .binary64 m e))) :
    IsNearest (m * 10 ^ e) x := by
  have hcast : (1 : ℚ) ≤ m := by exact_mod_cast hm
  have hbits : (2 : ℤ) ^ Format.binary64.exponentBits = 2048 := rfl
  unfold UnpackedFloat.ofScientific at hx
  rw [dif_neg hm.ne', hbits] at hx
  split_ifs at hx with hlarge hsmall hsign
  · refine isNearest_infinity ?_ hx
    have hexp : (309 : ℤ) ≤ e := by
      omega
    calc rangeEnd ≤ 10 ^ (309 : ℤ) := rangeEnd_le
      _ ≤ 10 ^ e := zpow_le_zpow_right₀ (by norm_num) hexp
      _ ≤ m * 10 ^ e := le_mul_of_one_le_left (by positivity) hcast
  · refine isNearest_zero (by positivity) ?_ hx
    have hexp : (m.log2 + 1 : ℕ) + e ≤ -324 := by
      omega
    have hhigh : (m : ℚ) ≤ 10 ^ (m.log2 + 1) := by
      exact_mod_cast (Nat.lt_log2_self (n := m)).le.trans (Nat.pow_le_pow_left (by norm_num) _)
    calc (m * 10 ^ e : ℚ) ≤ 10 ^ (m.log2 + 1) * 10 ^ e := by gcongr
      _ = 10 ^ ((m.log2 + 1 : ℕ) + e : ℤ) := by
          rw [zpow_add₀ (by norm_num : (10 : ℚ) ≠ 0), zpow_natCast]
      _ ≤ 10 ^ (-324 : ℤ) := zpow_le_zpow_right₀ (by norm_num) hexp
      _ ≤ 2 ^ (-1075 : ℤ) := pow_le_tiny
  · obtain ⟨k, rfl⟩ := Int.eq_ofNat_of_zero_le hsign
    have hvalue : (m * 10 ^ (k : ℤ) : ℚ) = (m <<< 53 : ℕ) * 2 ^ (-53 : ℤ) *
        ((10 ^ k : ℕ) * 2 ^ (0 : ℤ)) := by
      rw [Nat.shiftLeft_eq, zpow_natCast, zpow_neg, zpow_zero]
      push_cast
      norm_num
      field_simp
    rw [hvalue]
    refine isNearest_mul _ _ ?_ hx
    rw [Nat.shiftLeft_eq]
    calc 2 ^ 52 ≤ 1 * 2 ^ 53 * 1 := by norm_num
      _ ≤ m * 2 ^ 53 * 10 ^ k := by gcongr <;> exact Nat.one_le_iff_ne_zero.mpr (by positivity)
  · obtain ⟨k, rfl⟩ : ∃ k : ℕ, e = -k := ⟨(-e).toNat, by omega⟩
    have hvalue : (m * 10 ^ (-k : ℤ) : ℚ) = m * 2 ^ (0 : ℤ) / ((10 ^ k : ℕ) * 2 ^ (0 : ℤ)) := by
      rw [zpow_neg, zpow_natCast, zpow_zero]
      push_cast
      field_simp
    rw [hvalue]
    refine isNearest_div hm (by positivity) ?_
    rw [hx]
    congr 3
    simp

/-- A natural number times a power of ten. -/
theorem isNearest_ofScientific (hm : 0 < m) (e : ℕ) :
    IsNearest (m * 10 ^ (e : ℤ)) (Float.ofScientific m false e) := by
  unfold Float.ofScientific
  simp only [Bool.false_eq_true, if_false]
  split_ifs with hshort
  · have hpower := exactly_powerOfTen ⟨e, by omega⟩
    rw [zpow_natCast]
    exact_mod_cast isNearest_exactly_mul (exactly_toFloat hm hshort.1) hpower
  · exact isNearest_integers hm e rfl

/-- A natural number divided by a power of ten. -/
theorem isNearest_ofScientific_neg (hm : 0 < m) (e : ℕ) :
    IsNearest (m * 10 ^ (-e : ℤ)) (Float.ofScientific m true e) := by
  unfold Float.ofScientific
  simp only [if_true]
  split_ifs with hshort
  · have hpower := exactly_powerOfTen ⟨e, by omega⟩
    rw [zpow_neg, zpow_natCast, ← div_eq_mul_inv]
    exact_mod_cast isNearest_exactly_div (exactly_toFloat hm hshort.1) hpower
  · refine isNearest_integers hm (-e) ?_
    have hneg : (-e : ℤ) = Int.negOfNat e := Int.negOfNat_eq.symm
    rw [hneg]
    rfl

end Decimals

end Double

namespace Decimal

open SimplexTableau.Double

/-- Digits with a power of ten are read as the nearest double. -/
theorem isNearest_nearestDouble (digits : ℕ) (exponent : ℤ) :
    IsNearest (digits * 10 ^ exponent) (nearestDouble digits exponent) := by
  have hlength : 0 < (Nat.toDigits 10 digits).length := Nat.length_toDigits_pos
  have hhigh : digits < 10 ^ (Nat.toDigits 10 digits).length :=
    (Nat.length_toDigits_le_iff (by norm_num) hlength).mp le_rfl
  unfold nearestDouble
  set length := (Nat.toDigits 10 digits).length with hdef
  simp only [Bool.or_eq_true, decide_eq_true_eq]
  split_ifs with hsmall hlarge
  · refine isNearest_zero (by positivity) ?_ rfl
    rcases hsmall with rfl | hreach
    · rw [Nat.cast_zero, zero_mul]
      positivity
    · have hcast : (digits : ℚ) ≤ 10 ^ length := by exact_mod_cast hhigh.le
      calc (digits * 10 ^ exponent : ℚ) ≤ 10 ^ length * 10 ^ exponent := by gcongr
        _ = 10 ^ (length + exponent : ℤ) := by
            rw [zpow_add₀ (by norm_num : (10 : ℚ) ≠ 0), zpow_natCast]
        _ ≤ 10 ^ (-324 : ℤ) := zpow_le_zpow_right₀ (by norm_num) (by omega)
        _ ≤ 2 ^ (-1075 : ℤ) := pow_le_tiny
  · refine isNearest_infinity ?_ rfl
    obtain ⟨less, hless⟩ : ∃ l, length = l + 1 := ⟨length - 1, by omega⟩
    have hlow : 10 ^ less ≤ digits := by
      rcases Nat.eq_zero_or_pos less with rfl | hpos
      · exact Nat.one_le_iff_ne_zero.mpr fun h => hsmall (.inl h)
      · by_contra hlt
        have hle := (Nat.length_toDigits_le_iff (by norm_num) hpos).mpr (not_le.mp hlt)
        omega
    have hcast : (10 ^ less : ℚ) ≤ digits := by exact_mod_cast hlow
    calc rangeEnd ≤ 10 ^ (309 : ℤ) := rangeEnd_le
      _ ≤ 10 ^ (less + exponent : ℤ) := zpow_le_zpow_right₀ (by norm_num) (by omega)
      _ = 10 ^ less * 10 ^ exponent := by
          rw [zpow_add₀ (by norm_num : (10 : ℚ) ≠ 0), zpow_natCast]
      _ ≤ digits * 10 ^ exponent := by gcongr
  · have hpos : 0 < digits := Nat.pos_of_ne_zero fun h => hsmall (.inl h)
    cases exponent with
    | ofNat e => exact isNearest_ofScientific hpos e
    | negSucc e => exact isNearest_ofScientific_neg hpos (e + 1)

/-- Whole numbers are read as the nearest double. -/
theorem isNearest_ofInt (n : ℤ) : IsNearest n (ofInt n) := by
  have hsize := isNearest_nearestDouble n.natAbs 0
  rw [zpow_zero, MulOneClass.mul_one] at hsize
  unfold ofInt
  split_ifs with hneg
  · have hvalue : (n : ℚ) = -(n.natAbs : ℚ) := by
      rw [Nat.cast_natAbs, abs_of_neg hneg]
      push_cast
      ring
    rw [hvalue]
    exact hsize.neg
  · have hvalue : (n : ℚ) = (n.natAbs : ℚ) := by
      rw [Nat.cast_natAbs, abs_of_nonneg (by omega)]
    rw [hvalue]
    exact hsize

end Decimal

end SimplexTableau
