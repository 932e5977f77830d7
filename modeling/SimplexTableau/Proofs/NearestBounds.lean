import SimplexTableau.Proofs.NearestDecimals

/-!
# Bounds under rounding

Rounding to the nearest double never passes over a double. So a number between two doubles is
rounded to one between them, and products and decimals that are at least a natural number still are
after rounding, as long as that number fits into a mantissa.
-/

namespace SimplexTableau

namespace Double

open Float.Model (UnpackedFloat)
open Float.Model.UnpackedFloat

section Bounds

variable {q a b : ℚ} {x y low high : Float} {n d k : ℕ}

lemma abs_lt_rangeEnd (hy : value y = some (rational b)) : |b| < rangeEnd := by
  have hpositive {y : Float} {b : ℚ} (hy : value y = some (rational b)) (hpos : 0 < b) :
      b < rangeEnd := by
    obtain ⟨m, e, hm, hunpack, hproper, rfl⟩ := exists_positive hy hpos
    have hexponent := exponent_unpack_lt hunpack
    have hmantissa : (m : ℚ) ≤ 2 ^ 53 - 1 := by
      have hshort : m + 1 ≤ 2 ^ 53 := hproper.short
      rw [le_sub_iff_add_le]
      exact_mod_cast hshort
    rw [rangeEnd_eq]
    calc (m * 2 ^ e : ℚ) ≤ (2 ^ 53 - 1) * 2 ^ (971 : ℤ) := by
          gcongr
          · norm_num
          · omega
      _ < (2 ^ 53 - 1 / 2) * 2 ^ (971 : ℤ) := by
          gcongr
          norm_num
  rcases lt_trichotomy b 0 with hneg | rfl | hpos
  · rw [abs_of_neg hneg]
    exact hpositive (value_neg hy) (neg_pos.mpr hneg)
  · rw [abs_zero]
    exact rangeEnd_pos
  · rw [abs_of_pos hpos]
    exact hpositive hy hpos

/-- A double below a number is not above the nearest one. -/
theorem IsNearest.reaches (h : IsNearest q x) (hb : value y = some (rational b)) (hle : b ≤ q) :
    ∃ v ∈ value x, rational b ≤ v := by
  cases h with
  | @finite a inside hvalue near =>
    refine ⟨rational a, hvalue, rational_le.mpr ?_⟩
    have hnear : q - a ≤ |q - b| := (le_abs_self _).trans (near y b hb)
    rw [abs_of_nonneg (by linarith)] at hnear
    linarith
  | above beyond hvalue => exact ⟨⊤, hvalue, le_top⟩
  | below beyond => linarith [(abs_lt.mp (abs_lt_rangeEnd hb)).1]

/-- A number between two doubles is rounded to a double between them. -/
theorem IsNearest.between (h : IsNearest q x) (ha : value low = some (rational a))
    (hb : value high = some (rational b)) (hlow : a ≤ q) (hhigh : q ≤ b) :
    ∃ c, value x = some (rational c) ∧ a ≤ c ∧ c ≤ b := by
  obtain ⟨v, hv, hle⟩ := h.reaches ha hlow
  obtain ⟨v', hv', hle'⟩ := h.neg.reaches (value_neg hb) (neg_le_neg hhigh)
  rcases value_cases v with rfl | rfl | ⟨c, rfl⟩
  · exact absurd hle (bot_lt_rational a).not_ge
  · rw [value_neg_top hv] at hv'
    obtain rfl := Option.some_inj.mp hv'
    exact absurd hle' (bot_lt_rational _).not_ge
  · rw [value_neg hv] at hv'
    obtain rfl := Option.some_inj.mp hv'
    exact ⟨c, hv, rational_le.mp hle, neg_le_neg_iff.mp (rational_le.mp hle')⟩

lemma exists_natural (hone : 0 < n) (hn : n < 2 ^ 53) : ∃ y, value y = some (rational n) := by
  obtain ⟨m, e, hm, hunpack, -, hvalue⟩ := (exactly_toFloat hone hn).exists_finite
  refine ⟨n.toUInt64.toFloat, ?_⟩
  rw [value, hunpack, ← hvalue]
  rfl

lemma IsNearest.reaches_natural (h : IsNearest q x) (hone : 0 < n) (hn : n < 2 ^ 53)
    (hle : (n : ℚ) ≤ q) : ∃ v ∈ value x, rational n ≤ v := by
  obtain ⟨y, hy⟩ := exists_natural hone hn
  exact h.reaches hy hle

/-- The double of a natural number is not below a smaller one. -/
theorem reaches_ofNat (hone : 0 < n) (hn : n < 2 ^ 53) (hle : n ≤ k) :
    ∃ v ∈ value (Float.ofNat k), rational n ≤ v := by
  have hnearest : IsNearest (k * 10 ^ ((0 : ℕ) : ℤ)) (Float.ofNat k) :=
    isNearest_ofScientific (hone.trans_le hle) 0
  refine hnearest.reaches_natural hone hn ?_
  rw [Nat.cast_zero, zpow_zero, MulOneClass.mul_one]
  exact_mod_cast hle

lemma isNearest_hundredths (hk : 0 < k) : IsNearest (k / 100) (Float.ofScientific k true 2) := by
  have hnearest := isNearest_ofScientific_neg hk 2
  norm_num at hnearest
  rwa [div_eq_mul_one_div]

/-- A number of hundredths is not rounded below a smaller whole number. -/
theorem reaches_hundredths (hone : 0 < n) (hn : n < 2 ^ 53) (hle : n * 100 ≤ k) :
    ∃ v ∈ value (Float.ofScientific k true 2), rational n ≤ v := by
  refine (isNearest_hundredths (by omega)).reaches_natural hone hn ?_
  rw [le_div_iff₀ (by norm_num)]
  exact_mod_cast hle

/-- A product of something large enough by a natural number is large enough. -/
theorem reaches_mul (hone : 0 < n * d) (hn : n * d < 2 ^ 53) (hx : ∃ v ∈ value x, rational n ≤ v)
    (hy : Exactly d y.toModel.unpack) : ∃ v ∈ value (x * y), rational (n * d : ℕ) ≤ v := by
  obtain ⟨m, e, hm, hunpack, hfull, hd⟩ := hy.exists_finite
  obtain ⟨v, hv, hle⟩ := hx
  rcases value_cases v with rfl | rfl | ⟨a, rfl⟩
  · exact absurd hle (bot_lt_rational _).not_ge
  · have hinfinite : UnpackedFloat.mul .binary64 (.infinity .positive)
        (.finite .positive m e hm) = .infinity .positive := rfl
    have hproduct : value (x * y) = some ⊤ := by
      rw [value, unpack_mul, unpack_of_value_top hv, hunpack, hinfinite]
      rfl
    exact ⟨⊤, hproduct, le_top⟩
  · have hna := rational_le.mp hle
    have hpos : (0 : ℚ) < n := by exact_mod_cast Nat.pos_of_mul_pos_right hone
    obtain ⟨m', e', hm', hunpack', -, ha⟩ := exists_positive hv (hpos.trans_le hna)
    have hnearest : IsNearest (m' * 2 ^ e' * (m * 2 ^ e)) (x * y) := by
      refine isNearest_mul hm' hm (hfull.trans (Nat.le_mul_of_pos_left m hm')) ?_
      rw [unpack_mul, hunpack', hunpack]
    rw [ha, hd] at hnearest
    refine hnearest.reaches_natural hone hn ?_
    push_cast
    gcongr

end Bounds

end Double

end SimplexTableau
