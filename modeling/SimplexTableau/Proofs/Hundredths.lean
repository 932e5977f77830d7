import SimplexTableau.Decimal.Fixed
import SimplexTableau.Proofs.NearestBounds

/-!
# Doubles rounded to hundredths

A number is rounded to hundredths from its exact value, and the hundredths are then turned into the
nearest double. What lies between a half and five is rounded to a double in that range, and what is
at least a small whole number stays so.
-/

namespace SimplexTableau

namespace Double

open Float.Model (UnpackedFloat Format)
open Float.Model.UnpackedFloat
open SimplexTableau.Decimal

section Bits

variable {b : BitVec (Format.binary64).numBits}

lemma toNat_unpackMantissa : (unpackMantissa b).toNat = b.toNat % 2 ^ 52 := by
  simp [unpackMantissa]

lemma toNat_unpackExponent : (unpackExponent b).toNat = b.toNat / 2 ^ 52 % 2 ^ 11 := by
  simp [unpackExponent, Nat.shiftRight_eq_div_pow]

lemma toNat_unpackSign : (unpackSign b).toNat = b.toNat / 2 ^ 63 % 2 := by
  simp [unpackSign, Nat.shiftRight_eq_div_pow]

/-- The binary fraction that a double is. -/
def binaryOf : UnpackedFloat → Binary
  | .notANumber => .nan
  | .infinity s => .infinite (s == .negative)
  | .zero s => .finite (s == .negative) 0 (-1074)
  | .finite s m e _ => .finite (s == .negative) m e

lemma ofBitVec_beq : ∀ v : BitVec 1, (Sign.ofBitVec v == .negative) = (v.toNat == 1) := by
  decide

/-- The bits of a double, taken apart. -/
def binaryOfBits (sign : BitVec 1) (exponent : BitVec 11) (mantissa : BitVec 52) : Binary :=
  if exponent = -1#11 then
    if mantissa = 0#52 then .infinite (sign.toNat == 1) else .nan
  else if exponent = 0#11 then .finite (sign.toNat == 1) mantissa.toNat (-1074)
  else .finite (sign.toNat == 1) (1#1 ++ mantissa).toNat (exponent.toNat - 1075)

lemma ofBits_eq_binaryOfBits (b : BitVec (Format.binary64).numBits) : Binary.ofBits b.toNat =
    binaryOfBits (unpackSign b) (unpackExponent b) (unpackMantissa b) := by
  have hones : @unpackExponent .binary64 b = -1#11 ↔ b.toNat / 2 ^ 52 % 2 ^ 11 = 2047 := by
    rw [← toNat_unpackExponent]
    exact ⟨fun h => by rw [h]; rfl, fun h => BitVec.eq_of_toNat_eq (by rw [h]; rfl)⟩
  have hnone : @unpackExponent .binary64 b = 0#11 ↔ b.toNat / 2 ^ 52 % 2 ^ 11 = 0 := by
    rw [← toNat_unpackExponent]
    exact ⟨fun h => by rw [h]; rfl, fun h => BitVec.eq_of_toNat_eq (by rw [h]; rfl)⟩
  have hzero : @unpackMantissa .binary64 b = 0#52 ↔ b.toNat % 2 ^ 52 = 0 := by
    rw [← toNat_unpackMantissa]
    exact ⟨fun h => by rw [h]; rfl, fun h => BitVec.eq_of_toNat_eq (by rw [h]; rfl)⟩
  simp only [binaryOfBits, hones, hnone, hzero, toNat_one_append, toNat_unpackMantissa,
    toNat_unpackExponent, toNat_unpackSign]
  rfl

/-- Both ways to take the bits of a double apart agree. -/
lemma ofBits_eq (b : BitVec (Format.binary64).numBits) :
    Binary.ofBits b.toNat = binaryOf (unpack .binary64 b) := by
  have hbias : (Format.exponentBias .binary64 : ℤ) = 1023 := rfl
  rw [ofBits_eq_binaryOfBits]
  unfold binaryOfBits UnpackedFloat.unpack
  split_ifs with hones hzero hnone
  · simp [binaryOf, ofBitVec_beq, hones, hzero]
  · simp [binaryOf, hones, hzero]
  · by_cases hzero : @unpackMantissa .binary64 b = 0#52
    · simp [binaryOf, ofBitVec_beq, hnone, hzero]
    · simp [binaryOf, ofBitVec_beq, hnone, hzero, hbias]
  · have hmax : @unpackExponent .binary64 b ≠ 2047#11 := hones
    simp [binaryOf, ofBitVec_beq, hmax, hnone, hbias]

end Bits

variable {x : Float}

lemma ofFloat_eq (x : Float) : Binary.ofFloat x = binaryOf x.toModel.unpack :=
  ofBits_eq x.toModel.toBits.toBitVec

lemma div_binaryQuotient (m : ℕ) (e : ℤ) :
    0 < (binaryQuotient m e).2 ∧
      ((binaryQuotient m e).1 / (binaryQuotient m e).2 : ℚ) = m * 2 ^ e := by
  cases e with
  | ofNat k => simp [binaryQuotient, twoTo]
  | negSucc k =>
    refine ⟨twoTo_pos _, ?_⟩
    simp [binaryQuotient, twoTo, zpow_negSucc, div_eq_mul_inv]

lemma exists_hundredths {q : ℚ} (hpos : 0 < q) (h : value x = some (rational q)) :
    ∃ k : ℕ, roundToHundredths x = Float.ofScientific k true 2 ∧ NearestEven (100 * q) k := by
  have hbinary := ofFloat_eq x
  unfold value at h
  generalize x.toModel.unpack = a at h hbinary
  rcases a with (_ | _) | _ | _ | ⟨_ | _, m, e, hm⟩ <;> simp [valueOf] at h
  case infinity.negative => exact absurd h (bot_lt_rational q).ne
  case infinity.positive => exact absurd h (rational_lt_top q).ne'
  case zero => exact absurd h hpos.ne
  case finite.negative =>
    have hvalue : (0 : ℚ) < m * 2 ^ e := by positivity
    linarith
  case finite.positive =>
    subst h
    obtain ⟨hden, hvalue⟩ := div_binaryQuotient m e
    refine ⟨hundredths (binaryQuotient m e).1 (binaryQuotient m e).2, ?_, ?_⟩
    · rw [roundToHundredths, hbinary]
      rfl
    · have hround := nearestEven_roundHalfEven (100 * (binaryQuotient m e).1) hden
      rw [Nat.cast_mul, mul_div_assoc, hvalue] at hround
      exact hround

lemma exists_rational {low high : Float} {a b : ℚ} (ha : value low = some (rational a))
    (hb : value high = some (rational b)) (hlow : low ≤ x) (hhigh : x ≤ high) :
    ∃ q, value x = some (rational q) ∧ a ≤ q ∧ q ≤ b := by
  obtain ⟨a', ha', v, hv, hle⟩ := le_iff_value.mp hlow
  obtain ⟨v', hv', b', hb', hle'⟩ := le_iff_value.mp hhigh
  obtain rfl := Option.mem_unique ha' ha
  obtain rfl := Option.mem_unique hb' hb
  obtain rfl := Option.mem_unique hv' hv
  rcases value_cases v' with rfl | rfl | ⟨q, rfl⟩
  · exact absurd hle (bot_lt_rational a).not_ge
  · exact absurd hle' (rational_lt_top b).not_ge
  · exact ⟨q, hv, rational_le.mp hle, rational_le.mp hle'⟩

/-- What lies between a half and five is rounded to a rational number that does not exceed five. -/
theorem hundredths_between (hlow : 0.5 ≤ x) (hhigh : x ≤ 5) :
    ∃ q, value (roundToHundredths x) = some (rational q) ∧ 0 ≤ q ∧ q ≤ 5 := by
  have hhalf : value 0.5 = some (rational (1 / 2)) := by
    have h : value 0.5 = some (rational (((2 ^ 52 : ℕ) : ℚ) * 2 ^ (-53 : ℤ))) := rfl
    rw [h]
    norm_num
  obtain ⟨q, hq, hql, hqh⟩ := exists_rational hhalf value_five hlow hhigh
  obtain ⟨k, hk, hround⟩ := exists_hundredths (by linarith) hq
  have hk50 : (50 : ℤ) ≤ k := (NearestEven.of_int 50).mono hround (by push_cast; linarith)
  have hk500 : (k : ℤ) ≤ 500 := hround.mono (NearestEven.of_int 500) (by push_cast; linarith)
  have hnearest := isNearest_hundredths (k := k) (by omega)
  rw [← hk] at hnearest
  have hzero : value 0 = some (rational 0) := rfl
  refine hnearest.between hzero value_five (by positivity) ?_
  rw [div_le_iff₀ (by norm_num)]
  norm_num
  exact_mod_cast hk500

/-- What is at least a whole number is not rounded below it. -/
theorem hundredths_reaches {n : ℕ} (hone : 0 < n) (hn : n < 2 ^ 53)
    (h : ∃ v ∈ value x, rational n ≤ v) : ∃ v ∈ value (roundToHundredths x), rational n ≤ v := by
  obtain ⟨v, hv, hle⟩ := h
  rcases value_cases v with rfl | rfl | ⟨q, rfl⟩
  · exact absurd hle (bot_lt_rational _).not_ge
  · have hsame : roundToHundredths x = x := by
      have hbinary := ofFloat_eq x
      unfold value at hv
      generalize x.toModel.unpack = a at hv hbinary
      rcases a with (_ | _) | _ | _ | ⟨_ | _, m, e, hm⟩ <;> simp [valueOf] at hv
      case infinity.positive =>
        rw [roundToHundredths, hbinary]
        rfl
      all_goals exact absurd hv (rational_lt_top _).ne
    rw [hsame]
    exact ⟨⊤, hv, hle⟩
  · have hnq := rational_le.mp hle
    have hpos : (1 : ℚ) ≤ n := by exact_mod_cast hone
    obtain ⟨k, hk, hround⟩ := exists_hundredths (by linarith) hv
    have hnk : (n * 100 : ℤ) ≤ k := by
      refine (NearestEven.of_int (n * 100)).mono hround ?_
      push_cast
      linarith
    rw [hk]
    exact reaches_hundredths hone hn (by exact_mod_cast hnk)

end Double

end SimplexTableau
