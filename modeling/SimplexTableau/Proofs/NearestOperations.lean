import SimplexTableau.Proofs.NearestDoubles

/-!
# Products and quotients of doubles

Products and quotients are rounded once, to the nearest double. Natural numbers that fit into a
mantissa are doubles themselves.
-/

namespace SimplexTableau

namespace Double

open Float.Model (UnpackedFloat Format totalExponent)
open Float.Model.UnpackedFloat

section Rounding

variable {q : ℚ} {x : Float} {m n : ℕ} {e f : ℤ}

/-- Rounding leaves the nearest double, if the places to drop are there. -/
theorem isNearest_round {acc : Accuracy} (hnonneg : 0 ≤ q)
    (h : Represents (ExtendedMantissa.ofMantissaAndAccuracy m acc) (q / 2 ^ e))
    (he : e ≤ max ((m.log2 : ℤ) + 1 + e - 53) (-1074))
    (hx : x.toModel.unpack =
      unpack .binary64 (pack .binary64 (roundWithAccuracy .binary64 .positive m e acc))) :
    IsNearest q x := by
  obtain ⟨r, t, hunits, hround⟩ := Units.exists_round h he
  rw [hround] at hx
  exact hunits.isNearest hnonneg hx

/-- A quotient is cut at an exponent that leaves 53 bits, unless it is the lowest one. -/
lemma divCore_eq {m m' : ℕ} (e e' : ℤ) (hm : 0 < m) (hm' : 0 < m') : ∃ (s : ℕ) (t : ℤ),
    t + s = e - e' ∧ t ≤ max ((m.log2 + e) - (m'.log2 + e') - 53) (-1074) ∧
      (t ≤ -1074 ∨ 2 ^ 52 ≤ m * 2 ^ s / m') ∧
      divCore .binary64 m e m' e' = (m * 2 ^ s / m', t, accuracyOfFraction (m * 2 ^ s % m') m') := by
  have htarget : Format.binary64.targetExponent (totalExponent m e - totalExponent m' e') =
      max ((m.log2 + e) - (m'.log2 + e') - 53) (-1074) := by
    have h : Format.binary64.targetExponent (totalExponent m e - totalExponent m' e') =
        max (totalExponent m e - totalExponent m' e' - 53) (-1074) := rfl
    rw [h, totalExponent, totalExponent]
    omega
  set t := min (e - e') (max ((m.log2 + e : ℤ) - (m'.log2 + e') - 53) (-1074)) with ht
  obtain ⟨s, hs⟩ : ∃ s : ℕ, t + s = e - e' := Int.le.dest (min_le_left _ _)
  have hshift : (e - e' - t).toNat = s := by omega
  refine ⟨s, t, hs, min_le_right _ _, or_iff_not_imp_left.mpr fun hlowest => ?_, ?_⟩
  · rw [Nat.le_div_iff_mul_le hm']
    have hlow := Nat.log2_self_le hm.ne'
    have hhigh : m' < 2 ^ (m'.log2 + 1) := Nat.lt_log2_self
    calc 2 ^ 52 * m' ≤ 2 ^ 52 * 2 ^ (m'.log2 + 1) := by gcongr
      _ = 2 ^ (53 + m'.log2) := by rw [← pow_add]; congr 1; omega
      _ ≤ 2 ^ (m.log2 + s) := Nat.pow_le_pow_right (by norm_num) (by omega)
      _ = 2 ^ m.log2 * 2 ^ s := pow_add _ _ _
      _ ≤ m * 2 ^ s := by gcongr
  · simp only [divCore, htarget, Nat.shiftLeft_eq, ← ht, hshift]

lemma le_target_of_full (h : 2 ^ 52 ≤ m) : e ≤ max ((m.log2 : ℤ) + 1 + e - 53) (-1074) := by
  have hlog : 52 ≤ m.log2 := (Nat.le_log2 (by omega)).mpr h
  omega

lemma isNearest_mul (hm : 0 < m) (hn : 0 < n) (hfull : 2 ^ 52 ≤ m * n)
    (hx : x.toModel.unpack = unpack .binary64 (pack .binary64
      (.mul .binary64 (.finite .positive m e hm) (.finite .positive n f hn)))) :
    IsNearest (m * 2 ^ e * (n * 2 ^ f)) x := by
  have hproduct : (m * 2 ^ e * (n * 2 ^ f) / 2 ^ (e + f) : ℚ) = (m * n : ℕ) := by
    rw [zpow_add₀ (by norm_num : (2 : ℚ) ≠ 0)]
    push_cast
    field_simp
  have hexact := represents_exact (m * n)
  rw [← hproduct] at hexact
  exact isNearest_round (by positivity) hexact (le_target_of_full hfull) hx

lemma isNearest_div (hm : 0 < m) (hn : 0 < n)
    (hx : x.toModel.unpack = unpack .binary64 (pack .binary64
      (.div .binary64 (.finite .positive m e hm) (.finite .positive n f hn)))) :
    IsNearest (m * 2 ^ e / (n * 2 ^ f)) x := by
  obtain ⟨s, t, hs, -, hfull, hcore⟩ := divCore_eq e f hm hn
  have hdiv : UnpackedFloat.div .binary64 (.finite .positive m e hm) (.finite .positive n f hn) =
      roundWithAccuracy .binary64 .positive (m * 2 ^ s / n) t
        (accuracyOfFraction (m * 2 ^ s % n) n) := by
    simp only [UnpackedFloat.div, hcore]
    rfl
  rw [hdiv] at hx
  refine isNearest_round (by positivity) ?_ ?_ hx
  · have hquotient : (m * 2 ^ e / (n * 2 ^ f) / 2 ^ t : ℚ) = (m * 2 ^ s : ℕ) / n := by
      have hsplit : (2 : ℚ) ^ e = 2 ^ s * 2 ^ t * 2 ^ f := by
        rw [← zpow_natCast, ← zpow_add₀ (by norm_num : (2 : ℚ) ≠ 0),
          ← zpow_add₀ (by norm_num : (2 : ℚ) ≠ 0)]
        congr 1
        omega
      rw [hsplit]
      push_cast
      field_simp
    rw [hquotient]
    exact represents_fraction (m * 2 ^ s) hn
  · rcases hfull with hlowest | hfull
    · exact hlowest.trans (le_max_right _ _)
    · exact le_target_of_full hfull

end Rounding

/-- A natural number in the form of a double with a full mantissa. -/
def Exactly (k : ℕ) : UnpackedFloat → Prop
  | .finite .positive m e _ => 2 ^ 52 ≤ m ∧ m * 2 ^ e.toNat = k * 2 ^ (-e).toNat
  | _ => False

instance (k : ℕ) (a : UnpackedFloat) : Decidable (Exactly k a) :=
  match a with
  | .finite .positive m e _ =>
    inferInstanceAs (Decidable (2 ^ 52 ≤ m ∧ m * 2 ^ e.toNat = k * 2 ^ (-e).toNat))
  | .finite .negative _ _ _ | .zero _ | .infinity _ | .notANumber => inferInstanceAs (Decidable False)

section Exact

variable {x : Float} {a : UnpackedFloat} {k m n : ℕ}

lemma Exactly.exists_finite (h : Exactly k a) : ∃ (m : ℕ) (e : ℤ) (hm : 0 < m),
    a = .finite .positive m e hm ∧ 2 ^ 52 ≤ m ∧ (m * 2 ^ e : ℚ) = k := by
  rcases a with _ | _ | _ | ⟨_ | _, m, e, hm⟩
  case finite.positive =>
    obtain ⟨hfull, hvalue⟩ := h
    refine ⟨m, e, hm, rfl, hfull, ?_⟩
    have hcast : (m * 2 ^ e.toNat : ℚ) = k * 2 ^ (-e).toNat := by exact_mod_cast hvalue
    have hsplit : (2 : ℚ) ^ e = 2 ^ e.toNat / 2 ^ (-e).toNat := by
      rw [← zpow_natCast, ← zpow_natCast, ← zpow_sub₀ (by norm_num : (2 : ℚ) ≠ 0)]
      congr 1
      omega
    rw [hsplit, ← mul_div_assoc, hcast, mul_div_cancel_right₀ _ (by positivity)]
  all_goals exact h.elim

/-- A natural number is rounded with its binary places on. -/
lemma ofNat_eq (hk : 0 < k) : UnpackedFloat.ofNat .binary64 k =
    roundWithAccuracy .binary64 .positive (k * 2 ^ (52 - k.log2)) (-(52 - k.log2 : ℕ)) .exact := by
  have hround : UnpackedFloat.ofNat .binary64 k = round .binary64 .positive k 0 := by
    unfold UnpackedFloat.ofNat UnpackedFloat.ofInt UnpackedFloat.normalize
    have hcompare : compare (k : ℤ) 0 = .gt := compare_gt_iff_gt.mpr (by exact_mod_cast hk)
    rw [hcompare]
    simp
  have htarget : Format.binary64.targetExponent (totalExponent k 0) = (k.log2 : ℤ) - 52 := by
    have h : Format.binary64.targetExponent (totalExponent k 0) =
        max (totalExponent k 0 - 53) (-1074) := rfl
    rw [h, totalExponent]
    omega
  have hshift : (-((k.log2 : ℤ) - 52)).toNat = 52 - k.log2 := by omega
  rw [hround, UnpackedFloat.round]
  simp only [htarget, decreaseExponent, zero_sub, hshift, Nat.shiftLeft_eq]

lemma exactly_toFloat (hk : 0 < k) (hshort : k < 2 ^ 53) :
    Exactly k k.toUInt64.toFloat.toModel.unpack := by
  have hlog : k.log2 < 53 := (Nat.log2_lt hk.ne').mpr hshort
  have hlow := Nat.log2_self_le hk.ne'
  have hhigh : k < 2 ^ (k.log2 + 1) := Nat.lt_log2_self
  have hvalue : k.toUInt64.toNat = k := by
    rw [Nat.toUInt64_eq, UInt64.toNat_ofNat']
    exact Nat.mod_eq_of_lt (hshort.trans (by norm_num))
  have hunpack : k.toUInt64.toFloat.toModel.unpack = unpack .binary64 (pack .binary64
      (UnpackedFloat.ofNat .binary64 k.toUInt64.toNat)) := rfl
  obtain ⟨s, hs⟩ : ∃ s, k.log2 + s = 52 := ⟨52 - k.log2, by omega⟩
  have hform : Canonical (k * 2 ^ s) (-s) := by
    refine ⟨by positivity, ?_, by omega, .inr ?_⟩
    · calc k * 2 ^ s < 2 ^ (k.log2 + 1) * 2 ^ s := by gcongr
        _ = 2 ^ 53 := by rw [← pow_add]; congr 1; omega
    · calc 2 ^ 52 = 2 ^ k.log2 * 2 ^ s := by rw [← pow_add, hs]
        _ ≤ k * 2 ^ s := by gcongr
  have hround := hform.roundWithAccuracy_eq .positive 0
  have hshift : 52 - k.log2 = s := by omega
  rw [pow_zero, Nat.mul_one, Nat.cast_zero, Int.sub_zero] at hround
  rw [hunpack, hvalue, ofNat_eq hk, hshift, hround, hform.unpack_pack (by omega)]
  refine ⟨hform.full.resolve_left (by omega), ?_⟩
  have hzero : (-(s : ℤ)).toNat = 0 := by omega
  have hplaces : (- -(s : ℤ)).toNat = s := by omega
  rw [hzero, hplaces, pow_zero, Nat.mul_one]

lemma isNearest_exactly_mul {y z : Float} (hy : Exactly m y.toModel.unpack)
    (hz : Exactly n z.toModel.unpack) : IsNearest (m * n) (y * z) := by
  obtain ⟨m', e, hm, hunpack, hfull, hvalue⟩ := hy.exists_finite
  obtain ⟨n', f, hn, hunpack', -, hvalue'⟩ := hz.exists_finite
  rw [← hvalue, ← hvalue']
  refine isNearest_mul hm hn (hfull.trans (Nat.le_mul_of_pos_right m' hn)) ?_
  rw [unpack_mul, hunpack, hunpack']

lemma isNearest_exactly_div {y z : Float} (hy : Exactly m y.toModel.unpack)
    (hz : Exactly n z.toModel.unpack) : IsNearest (m / n) (y / z) := by
  obtain ⟨m', e, hm, hunpack, -, hvalue⟩ := hy.exists_finite
  obtain ⟨n', f, hn, hunpack', -, hvalue'⟩ := hz.exists_finite
  rw [← hvalue, ← hvalue']
  refine isNearest_div hm hn ?_
  rw [unpack_div, hunpack, hunpack']

end Exact

end Double

end SimplexTableau
