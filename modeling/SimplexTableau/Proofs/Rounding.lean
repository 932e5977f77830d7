import SimplexTableau.Proofs.DoubleValues

/-!
# Rounding to doubles

Rounding drops binary places of a mantissa until 53 are left. Nothing is lost of a number that is
written canonically, so a product with one is the number itself, and packing loses nothing either.
-/

namespace SimplexTableau

namespace Double

open Float.Model (UnpackedFloat Format totalExponent)
open Float.Model.UnpackedFloat

section Shifting

/-- The number of binary places that rounding drops. -/
def dropped (m : ℕ) (e : ℤ) : ℕ :=
  (max (m.log2 + 1 + e - 53) (-1074) - e).toNat

lemma shiftToTargetExponent_eq (m : ℕ) (e : ℤ) (acc : Accuracy) :
    shiftToTargetExponent .binary64 m e acc =
      (ExtendedMantissa.ofMantissaAndAccuracy m acc >>> dropped m e, e + dropped m e) :=
  rfl

lemma shiftRight_succ (em : ExtendedMantissa) (k : ℕ) :
    em >>> (k + 1) = (em >>> k).shiftRightOne :=
  rfl

lemma mantissa_shiftRight (em : ExtendedMantissa) (k : ℕ) :
    (em >>> k).mantissa = em.mantissa / 2 ^ k := by
  induction k with
  | zero => exact (Nat.div_one _).symm
  | succ k ih =>
    rw [shiftRight_succ, ExtendedMantissa.shiftRightOne, ih, Nat.div_div_eq_div_mul, pow_succ]

lemma mantissa_ofMantissaAndAccuracy (m : ℕ) (acc : Accuracy) :
    (ExtendedMantissa.ofMantissaAndAccuracy m acc).mantissa = m := by
  rcases acc with _ | _ | _ | _ <;> rfl

lemma shiftRight_exact (m k : ℕ) :
    ExtendedMantissa.ofMantissaAndAccuracy (m * 2 ^ k) .exact >>> k =
      ExtendedMantissa.ofMantissaAndAccuracy m .exact := by
  induction k generalizing m with
  | zero => rw [pow_zero, mul_one]; rfl
  | succ k ih =>
    rw [shiftRight_succ, pow_succ', ← mul_assoc, ih]
    simp [ExtendedMantissa.shiftRightOne, ExtendedMantissa.ofMantissaAndAccuracy]

end Shifting

lemma log2_mul_pow {m : ℕ} (h : 0 < m) (k : ℕ) : (m * 2 ^ k).log2 = m.log2 + k := by
  induction k with
  | zero => rw [pow_zero, Nat.mul_one, Nat.add_zero]
  | succ k ih =>
    rw [pow_succ', Nat.mul_left_comm, Nat.log2_two_mul (by positivity), ih, Nat.add_assoc]

/-- The exponent of a canonical number is the one that rounding aims at. -/
lemma Canonical.target {m : ℕ} {e : ℤ} (h : Canonical m e) :
    max ((m.log2 : ℤ) + 1 + e - 53) (-1074) = e := by
  have hlog : m.log2 < 53 := (Nat.log2_lt h.pos.ne').mpr h.short
  have hlow := h.lowest
  rcases h.full with he | hm
  · omega
  · have hle : 52 ≤ m.log2 := (Nat.le_log2 h.pos.ne').mpr hm
    omega

/-- Rounding gives a canonical number back, with any number of zeros added to its places. -/
theorem Canonical.roundWithAccuracy_eq {m : ℕ} {e : ℤ} (h : Canonical m e) (s : Sign) (k : ℕ) :
    roundWithAccuracy .binary64 s (m * 2 ^ k) (e - k) .exact = .finite s m e h.pos := by
  have htarget := h.target
  have hlog : (m * 2 ^ k).log2 = m.log2 + k := log2_mul_pow h.pos k
  have hfirst : dropped (m * 2 ^ k) (e - k) = k := by
    rw [dropped, hlog]
    push_cast
    omega
  have hsecond : dropped m e = 0 := by
    rw [dropped]
    omega
  have hround : (ExtendedMantissa.ofMantissaAndAccuracy m .exact).roundedMantissa = m := rfl
  have hshift : ExtendedMantissa.ofMantissaAndAccuracy m .exact >>> 0 =
      ExtendedMantissa.ofMantissaAndAccuracy m .exact := rfl
  have hback : e - (k : ℤ) + k = e := by omega
  unfold roundWithAccuracy
  simp only [shiftToTargetExponent_eq, hfirst, shiftRight_exact, hback, hround, hsecond, hshift,
    mantissa_ofMantissaAndAccuracy, dif_neg h.pos.ne', Nat.cast_zero, add_zero]

section Packing

variable {s : Sign} {m : ℕ} {e : ℤ} {hm : 0 < m}

lemma unpack_pack_normal (hfull : 2 ^ 52 ≤ m) (hshort : m < 2 ^ 53) (hlow : -1074 ≤ e) :
    unpack .binary64 (pack .binary64 (.finite s m e hm)) =
      if 972 ≤ e then .infinity s else .finite s m e hm := by
  have hlog : m.log2 = 52 := (Nat.log2_eq_iff hm.ne').mpr ⟨hfull, hshort⟩
  have hbits : m.log2 + 1 = Format.binary64.mantissaBits := by rw [hlog]; rfl
  obtain ⟨biased, hbiased⟩ : ∃ b : ℕ, (b : ℤ) = e + 1075 := ⟨(e + 1075).toNat, by omega⟩
  have hbias : (Format.binary64.exponentBias : ℤ) = 1023 := rfl
  have hshift : (e + Format.binary64.exponentBias + (52 : ℕ)).toNat = biased := by
    rw [hbias]
    omega
  unfold pack
  simp only [hshift]
  by_cases hlarge : 972 ≤ e
  · rw [if_pos (by omega), if_pos hlarge]
    cases s <;> rfl
  · rw [if_neg (by omega), if_neg hlarge, if_pos hbits]
    have hexp : (BitVec.ofNat 11 biased).toNat = biased := by
      rw [BitVec.toNat_ofNat]
      omega
    have hfraction : (1#1 ++ BitVec.ofNat 52 m).toNat = m := by
      rw [toNat_one_append, BitVec.toNat_ofNat]
      omega
    have hzero : BitVec.ofNat 11 biased ≠ 0#11 := by
      intro h
      have htoNat := congrArg BitVec.toNat h
      rw [hexp] at htoNat
      simp at htoNat
      omega
    have hones : BitVec.ofNat 11 biased ≠ -1#11 := by
      intro h
      have htoNat := congrArg BitVec.toNat h
      rw [hexp] at htoNat
      simp at htoNat
      omega
    unfold UnpackedFloat.unpack
    simp only [unpackSign_packComponents, unpackExponent_packComponents,
      unpackMantissa_packComponents, Sign.ofBitVec_toBitVec, if_neg hones, if_neg hzero]
    simp only [UnpackedFloat.finite.injEq]
    refine ⟨trivial, hfraction, ?_⟩
    rw [hexp, hbiased, hbias]
    push_cast
    omega

lemma unpack_pack_subnormal (hshort : m < 2 ^ 52) :
    unpack .binary64 (pack .binary64 (.finite s m (-1074) hm)) = .finite s m (-1074) hm := by
  have hlog : m.log2 < 52 := (Nat.log2_lt hm.ne').mpr hshort
  have hbits : ¬ m.log2 + 1 = Format.binary64.mantissaBits := by
    change ¬ m.log2 + 1 = 53
    omega
  have hmantissa : (BitVec.ofNat 52 m).toNat = m := by
    rw [BitVec.toNat_ofNat]
    exact Nat.mod_eq_of_lt hshort
  have hzero : BitVec.ofNat 52 m ≠ 0#52 := by
    intro h
    have htoNat := congrArg BitVec.toNat h
    rw [hmantissa] at htoNat
    exact hm.ne' htoNat
  unfold pack
  simp only [if_neg hbits]
  rw [if_neg (by decide)]
  unfold UnpackedFloat.unpack
  simp only [unpackSign_packComponents, unpackExponent_packComponents,
    unpackMantissa_packComponents, Sign.ofBitVec_toBitVec]
  rw [if_neg (by decide), if_pos trivial, dif_neg hzero]
  simp only [UnpackedFloat.finite.injEq]
  exact ⟨trivial, hmantissa, rfl⟩

/-- What is written canonically and not beyond all doubles is packed without loss. -/
theorem Canonical.unpack_pack (h : Canonical m e) (hlarge : e < 972) :
    unpack .binary64 (pack .binary64 (.finite s m e hm)) = .finite s m e hm := by
  by_cases hfull : 2 ^ 52 ≤ m
  · rw [unpack_pack_normal hfull h.short h.lowest, if_neg hlarge.not_ge]
  · obtain rfl := h.full.resolve_right hfull
    exact unpack_pack_subnormal (not_le.mp hfull)

end Packing

variable {x y : Float}

lemma unpack_mul (x y : Float) : (x * y).toModel.unpack =
    unpack .binary64 (pack .binary64 (.mul .binary64 x.toModel.unpack y.toModel.unpack)) :=
  rfl

lemma unpack_div (x y : Float) : (x / y).toModel.unpack =
    unpack .binary64 (pack .binary64 (.div .binary64 x.toModel.unpack y.toModel.unpack)) :=
  rfl

lemma unpack_sub (x y : Float) : (x - y).toModel.unpack =
    unpack .binary64 (pack .binary64 (.sub .binary64 x.toModel.unpack y.toModel.unpack)) :=
  rfl

lemma unpack_pack_unpack (x : Float) :
    unpack .binary64 (pack .binary64 x.toModel.unpack) = x.toModel.unpack :=
  @unpack_pack .binary64 _ (by decide)

/-- A double times one is itself. -/
theorem mul_one (x : Float) : x * 1 = x := by
  have hone : (1 : Float).toModel.unpack = .finite .positive (2 ^ 52) (-52) (by norm_num) := rfl
  have hmul : UnpackedFloat.mul .binary64 x.toModel.unpack (1 : Float).toModel.unpack =
      x.toModel.unpack := by
    have hproper := proper x
    rw [hone]
    generalize x.toModel.unpack = a at hproper
    rcases a with (_ | _) | _ | (_ | _) | ⟨s, m, e, hm⟩
    case finite =>
      have hsign : s * .positive = s := by cases s <;> rfl
      calc UnpackedFloat.mul .binary64 (.finite s m e hm) (.finite .positive (2 ^ 52) (-52) _)
          = roundWithAccuracy .binary64 (s * .positive) (m * 2 ^ 52) (e - (52 : ℕ)) .exact := rfl
        _ = .finite s m e hm := by rw [hsign, Canonical.roundWithAccuracy_eq hproper]
    all_goals rfl
  apply eq_of_unpack
  rw [unpack_mul, hmul, unpack_pack_unpack]

/-- A finite double taken from itself leaves the zero without a sign. -/
theorem sub_self (h : x.isFinite = true) : x - x = 0 := by
  have hsub : UnpackedFloat.sub .binary64 x.toModel.unpack x.toModel.unpack = .zero .positive := by
    replace h : x.toModel.unpack.isFinite = true := h
    generalize x.toModel.unpack = a at h
    rcases a with s | _ | (_ | _) | ⟨s, m, e, hm⟩
    case infinity => cases h
    case notANumber => cases h
    case zero.negative => rfl
    case zero.positive => rfl
    case finite =>
      simp only [UnpackedFloat.sub, Int.sub_self, UnpackedFloat.normalize]
      rfl
  apply eq_of_unpack
  rw [unpack_sub, hsub]
  rfl

lemma unpack_mul_zero (h : x.isFinite = true) : ∃ s, (x * 0).toModel.unpack = .zero s := by
  have hmul : ∃ s, UnpackedFloat.mul .binary64 x.toModel.unpack (0 : Float).toModel.unpack =
      .zero s := by
    replace h : x.toModel.unpack.isFinite = true := h
    generalize x.toModel.unpack = a at h
    rcases a with s | _ | s | ⟨s, m, e, hm⟩
    case infinity => cases h
    case notANumber => cases h
    all_goals exact ⟨_, rfl⟩
  obtain ⟨s, hs⟩ := hmul
  refine ⟨s, ?_⟩
  rw [unpack_mul, hs]
  cases s <;> rfl

/-- A finite double times zero is a zero of either sign. -/
theorem mul_zero (h : x.isFinite = true) : x * 0 = 0 ∨ x * 0 = -0 := by
  obtain ⟨s, hs⟩ := unpack_mul_zero h
  cases s with
  | positive => exact Or.inl (eq_of_unpack hs)
  | negative => exact Or.inr (eq_of_unpack hs)

/-- Taking away a negative zero changes no double but itself. -/
theorem sub_neg_zero (x : Float) : x - (-0) = x ∨ x = -0 := by
  by_cases hx : x.toModel.unpack = .zero .negative
  · exact Or.inr (eq_of_unpack hx)
  · refine Or.inl (eq_of_unpack ?_)
    have hsub : UnpackedFloat.sub .binary64 x.toModel.unpack (-0 : Float).toModel.unpack =
        x.toModel.unpack := by
      have hzero : (-0 : Float).toModel.unpack = .zero .negative := rfl
      rw [hzero]
      generalize x.toModel.unpack = a at hx
      rcases a with s | _ | (_ | _) | ⟨s, m, e, hm⟩
      case zero.negative => exact absurd rfl hx
      all_goals rfl
    rw [unpack_sub, hsub, unpack_pack_unpack]

end Double

end SimplexTableau
