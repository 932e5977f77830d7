import SimplexTableau.Proofs.Remainders

/-!
# Rounding to the nearest double

A number is rounded to so many units of a power of two that no double is nearer. Of two that are
equally near it is the one with an even mantissa, and from halfway between the largest double and
the next power of two on it is an infinity. The nearest double is determined up to the sign of zero.
-/

namespace SimplexTableau

namespace Double

open Float.Model (UnpackedFloat Format totalExponent)
open Float.Model.UnpackedFloat
open SimplexTableau.Decimal (NearestEven)

/-- A number as so many units of a power of two. The unit is the lowest one, or leaves 53 places. -/
structure Units (x : ℚ) (r : ℕ) (t : ℤ) : Prop where
  lowest : -1074 ≤ t
  nearest : NearestEven (x / 2 ^ t) r
  lt : x < 2 ^ 53 * 2 ^ t
  full : t = -1074 ∨ 2 ^ 52 * 2 ^ t ≤ x

/-- So many units, with a carry if there are too many for a mantissa. -/
def ofUnits (r : ℕ) (t : ℤ) : UnpackedFloat :=
  if h : r = 0 then .zero .positive
  else if r < 2 ^ 53 then .finite .positive r t (Nat.pos_of_ne_zero h)
  else .finite .positive (2 ^ 52) (t + 1) (by norm_num)

namespace Units

variable {x : ℚ} {r : ℕ} {t : ℤ}

lemma unit_pos (t : ℤ) : (0 : ℚ) < 2 ^ t := by
  positivity

lemma div_lt (h : Units x r t) : x / 2 ^ t < 2 ^ 53 :=
  (div_lt_iff₀ (unit_pos t)).mpr h.lt

lemma le_div (h : Units x r t) (ht : t ≠ -1074) : 2 ^ 52 ≤ x / 2 ^ t :=
  (le_div_iff₀ (unit_pos t)).mpr (h.full.resolve_left ht)

lemma le_pow (h : Units x r t) : r ≤ 2 ^ 53 := by
  have hmono := h.nearest.mono (NearestEven.of_int (2 ^ 53)) (by exact_mod_cast h.div_lt.le)
  exact_mod_cast hmono

lemma pow_le (h : Units x r t) (ht : t ≠ -1074) : 2 ^ 52 ≤ r := by
  have hmono := (NearestEven.of_int (2 ^ 52)).mono h.nearest (by exact_mod_cast h.le_div ht)
  exact_mod_cast hmono

lemma canonical (h : Units x r t) (hr : r ≠ 0) (hshort : r < 2 ^ 53) : Canonical r t where
  pos := Nat.pos_of_ne_zero hr
  short := hshort
  lowest := h.lowest
  full := or_iff_not_imp_left.mpr h.pow_le

lemma eq_pow (h : Units x r t) (hlong : ¬ r < 2 ^ 53) : r = 2 ^ 53 :=
  le_antisymm h.le_pow (not_lt.mp hlong)

lemma value_ofUnits (h : Units x r t) : valueOf (ofUnits r t) = some (rational (r * 2 ^ t)) := by
  unfold ofUnits
  split_ifs with hr hshort
  · simp [valueOf, hr]
  · rfl
  · have hcarry : ((2 ^ 52 : ℕ) * 2 ^ (t + 1) : ℚ) = r * 2 ^ t := by
      rw [h.eq_pow hshort, zpow_add₀ (by norm_num : (2 : ℚ) ≠ 0)]
      push_cast
      ring
    rw [valueOf, hcarry]

lemma abs_sub_mul (x z : ℚ) (t : ℤ) : |x - z * 2 ^ t| = |x / 2 ^ t - z| * 2 ^ t := by
  have hunit := unit_pos t
  rw [← abs_of_pos hunit, ← abs_mul, abs_of_pos hunit, sub_mul, div_mul_cancel₀ _ hunit.ne']

lemma near_multiple (h : Units x r t) (j : ℤ) : |x - r * 2 ^ t| ≤ |x - j * 2 ^ t| ∧
    (|x - r * 2 ^ t| = |x - j * 2 ^ t| → (j * 2 ^ t : ℚ) = r * 2 ^ t ∨ Even r) := by
  have hunit := unit_pos t
  rw [abs_sub_mul, abs_sub_mul, ← Int.cast_natCast]
  refine ⟨mul_le_mul_of_nonneg_right (h.nearest.abs_le j) hunit.le, fun heq => ?_⟩
  rw [mul_left_inj' hunit.ne'] at heq
  rcases h.nearest.eq_or_even heq with rfl | heven
  · exact .inl rfl
  · exact .inr (by exact_mod_cast heven)

/-- What has a mantissa and a higher exponent is a multiple of the unit. -/
lemma exists_multiple {n : ℕ} {f : ℤ} {b : ℚ} (htf : t ≤ f) (hb : |b| = n * 2 ^ f) :
    ∃ j : ℤ, b = j * 2 ^ t := by
  obtain ⟨d, rfl⟩ := Int.le.dest htf
  have hsplit : (n * 2 ^ (t + d) : ℚ) = (n * 2 ^ d : ℕ) * 2 ^ t := by
    rw [zpow_add₀ (by norm_num : (2 : ℚ) ≠ 0), zpow_natCast]
    push_cast
    ring
  rw [hsplit] at hb
  rcases abs_choice b with hsign | hsign
  · exact ⟨(n * 2 ^ d : ℕ), by rw [Int.cast_natCast, ← hb, hsign]⟩
  · refine ⟨-(n * 2 ^ d : ℕ), ?_⟩
    rw [Int.cast_neg, Int.cast_natCast, neg_mul, ← hb, hsign]
    ring

/-- What has a lower exponent lies below the number, with a multiple of the unit in between. -/
lemma near_lower (h : Units x r t) {n : ℕ} {f : ℤ} {b : ℚ} (hn : Canonical n f) (hft : f < t)
    (hb : |b| = n * 2 ^ f) : |x - r * 2 ^ t| < |x - b| := by
  have hlarge := h.full.resolve_left (by have := hn.lowest; omega)
  have hlt : b < 2 ^ 52 * 2 ^ t := by
    have hshort : (n : ℚ) < 2 ^ 53 := by exact_mod_cast hn.short
    have hstep : (2 : ℚ) ^ (f + 1) ≤ 2 ^ t := zpow_le_zpow_right₀ (by norm_num) hft
    calc b ≤ |b| := le_abs_self b
      _ = n * 2 ^ f := hb
      _ < 2 ^ 53 * 2 ^ f := by gcongr
      _ = 2 ^ 52 * 2 ^ (f + 1) := by
          rw [zpow_add₀ (by norm_num : (2 : ℚ) ≠ 0)]
          ring
      _ ≤ 2 ^ 52 * 2 ^ t := by gcongr
  calc |x - r * 2 ^ t| ≤ |x - ((2 ^ 52 : ℤ) : ℚ) * 2 ^ t| := (h.near_multiple (2 ^ 52)).1
    _ = x - 2 ^ 52 * 2 ^ t := by
        push_cast
        exact abs_of_nonneg (by linarith)
    _ < x - b := by linarith
    _ ≤ |x - b| := le_abs_self _

/-- No double is nearer to the number than its units, and one that is equally near leaves an even
number of units. -/
theorem near (h : Units x r t) {y : Float} {b : ℚ} (hy : value y = some (rational b)) :
    |x - r * 2 ^ t| ≤ |x - b| ∧ (|x - r * 2 ^ t| = |x - b| → b = r * 2 ^ t ∨ Even r) := by
  have hfinite {n : ℕ} {f : ℤ} (hn : Canonical n f) (hb : |b| = n * 2 ^ f) :
      |x - r * 2 ^ t| ≤ |x - b| ∧ (|x - r * 2 ^ t| = |x - b| → b = r * 2 ^ t ∨ Even r) := by
    rcases le_or_gt t f with htf | hft
    · obtain ⟨j, rfl⟩ := exists_multiple htf hb
      exact h.near_multiple j
    · have hfar := h.near_lower hn hft hb
      exact ⟨hfar.le, fun heq => absurd heq hfar.ne⟩
  have hproper := proper y
  unfold value at hy
  generalize y.toModel.unpack = a at hy hproper
  rcases a with (_ | _) | _ | _ | ⟨_ | _, n, f, hn⟩ <;> simp [valueOf] at hy
  case infinity.negative => exact absurd hy (bot_lt_rational b).ne
  case infinity.positive => exact absurd hy (rational_lt_top b).ne'
  case zero => simpa [← hy] using h.near_multiple 0
  case finite.negative =>
    refine hfinite hproper ?_
    rw [← hy, abs_neg, abs_of_pos (Canonical.value_pos hproper)]
  case finite.positive =>
    refine hfinite hproper ?_
    rw [← hy, abs_of_pos (Canonical.value_pos hproper)]

lemma two_pow_add (k : ℕ) (e : ℤ) : (2 : ℚ) ^ (k + e : ℤ) = 2 ^ k * 2 ^ e := by
  rw [zpow_add₀ (by norm_num : (2 : ℚ) ≠ 0), zpow_natCast]

/-- The places that a mantissa has too many are dropped, but none below the lowest exponent. -/
lemma of_represents {m k : ℕ} {e : ℤ} {em : ExtendedMantissa}
    (h : Represents em (x / 2 ^ e)) (hm : em.mantissa = m)
    (hk : e + k = max ((m.log2 : ℤ) + 1 + e - 53) (-1074)) :
    Units x (em >>> k).roundedMantissa (e + k) := by
  have hle := h.le
  have hlt := h.lt
  rw [hm] at hle hlt
  have hunit := unit_pos e
  have hback : x / 2 ^ e * 2 ^ e = x := div_mul_cancel₀ _ hunit.ne'
  refine ⟨by omega, ?_, ?_, or_iff_not_imp_left.mpr fun hlowest => ?_⟩
  · have hshift : x / 2 ^ (e + k) = x / 2 ^ e / 2 ^ k := by
      rw [add_comm, two_pow_add, mul_comm, div_div]
    rw [hshift]
    exact (h.shiftRight k).nearestEven
  · have hcast : (m : ℚ) + 1 ≤ 2 ^ (m.log2 + 1) := by
      exact_mod_cast (Nat.lt_log2_self : m < 2 ^ (m.log2 + 1))
    calc x = x / 2 ^ e * 2 ^ e := hback.symm
      _ < 2 ^ (m.log2 + 1) * 2 ^ e := by gcongr; linarith
      _ = 2 ^ ((m.log2 + 1 : ℕ) + e : ℤ) := (two_pow_add _ _).symm
      _ ≤ 2 ^ ((53 : ℕ) + (e + k) : ℤ) := zpow_le_zpow_right₀ (by norm_num) (by omega)
      _ = 2 ^ 53 * 2 ^ (e + k : ℤ) := two_pow_add _ _
  · have hzero : m ≠ 0 := by
      rintro rfl
      rw [Nat.log2_zero] at hk
      omega
    have hcast : (2 : ℚ) ^ m.log2 ≤ m := by exact_mod_cast Nat.log2_self_le hzero
    calc (2 ^ 52 * 2 ^ (e + k : ℤ) : ℚ) = 2 ^ ((52 : ℕ) + (e + k) : ℤ) := (two_pow_add _ _).symm
      _ = 2 ^ (m.log2 + e : ℤ) := by congr 1; omega
      _ = 2 ^ m.log2 * 2 ^ e := two_pow_add _ _
      _ ≤ x / 2 ^ e * 2 ^ e := by gcongr; linarith
      _ = x := hback

/-- A number of units that is rounded once more only loses the place of a carry. -/
lemma shift_ofUnits (hlowest : -1074 ≤ t) (hr : r ≤ 2 ^ 53) :
    (if h : r / 2 ^ dropped r t = 0 then UnpackedFloat.zero .positive
      else .finite .positive (r / 2 ^ dropped r t) (t + dropped r t) (Nat.pos_of_ne_zero h)) =
        ofUnits r t := by
  unfold ofUnits
  rcases hr.lt_or_eq with hshort | rfl
  · have hnone : dropped r t = 0 := by
      have hlog : r.log2 ≤ 52 := by
        rcases Nat.eq_zero_or_pos r with rfl | hpos
        · simp
        · exact Nat.le_of_lt_succ ((Nat.log2_lt hpos.ne').mpr hshort)
      rw [dropped]
      omega
    simp only [hnone, pow_zero, Nat.div_one, Nat.cast_zero, add_zero, if_pos hshort]
  · have hcarry : dropped (2 ^ 53) t = 1 := by
      rw [dropped, Nat.log2_two_pow]
      omega
    rw [hcarry]
    rfl

/-- Rounding leaves so many units, if the places to drop are there. -/
theorem exists_round {m : ℕ} {e : ℤ} {acc : Accuracy}
    (h : Represents (ExtendedMantissa.ofMantissaAndAccuracy m acc) (x / 2 ^ e))
    (he : e ≤ max ((m.log2 : ℤ) + 1 + e - 53) (-1074)) :
    ∃ r t, Units x r t ∧ roundWithAccuracy .binary64 .positive m e acc = ofUnits r t := by
  obtain ⟨k, hk⟩ : ∃ k : ℕ, e + k = max ((m.log2 : ℤ) + 1 + e - 53) (-1074) := Int.le.dest he
  have hdropped : dropped m e = k := by
    rw [dropped]
    omega
  have hunits := of_represents h (mantissa_ofMantissaAndAccuracy m acc) hk
  refine ⟨_, _, hunits, ?_⟩
  rw [← shift_ofUnits hunits.lowest hunits.le_pow]
  unfold roundWithAccuracy
  simp only [shiftToTargetExponent_eq, hdropped, mantissa_shiftRight,
    mantissa_ofMantissaAndAccuracy]

end Units

/-- From here on numbers are rounded to an infinity. -/
def rangeEnd : ℚ :=
  2 ^ 1024 - 2 ^ 970

/-- An even mantissa; that of a zero is one. -/
def EvenMantissa : UnpackedFloat → Prop
  | .finite _ m _ _ => Even m
  | .zero _ => True
  | _ => False

/-- The double nearest to a number, the one with an even mantissa of two equally near, or an
infinity from the end of the range on. -/
inductive IsNearest (q : ℚ) (x : Float) : Prop
  | finite {a : ℚ} (inside : |q| < rangeEnd) (value : value x = some (rational a))
      (near : ∀ (y : Float) (b : ℚ), Double.value y = some (rational b) → |q - a| ≤ |q - b|)
      (even : ∀ (y : Float) (b : ℚ), Double.value y = some (rational b) → |q - a| = |q - b| →
        b = a ∨ EvenMantissa x.toModel.unpack)
  | above (beyond : rangeEnd ≤ q) (value : value x = some ⊤)
  | below (beyond : q ≤ -rangeEnd) (value : value x = some ⊥)

section Nearest

variable {q : ℚ} {x : Float} {r : ℕ} {t : ℤ}

lemma rangeEnd_eq : rangeEnd = (2 ^ 53 - 1 / 2) * 2 ^ (971 : ℤ) := by
  have hlarge : (2 : ℚ) ^ 1024 = 2 ^ 53 * 2 ^ 971 := by rw [← pow_add]
  have hhalf : (2 : ℚ) ^ 971 = 2 ^ 970 * 2 := pow_succ _ _
  rw [rangeEnd, show (971 : ℤ) = ((971 : ℕ) : ℤ) from rfl, zpow_natCast, hlarge, hhalf]
  generalize (2 : ℚ) ^ 970 = unit
  ring

lemma rangeEnd_pos : 0 < rangeEnd := by
  rw [rangeEnd_eq]
  exact mul_pos (by norm_num) (Units.unit_pos 971)

/-- Halfway between the largest mantissa and the next power of two, the power of two is even. -/
lemma nearestEven_carry : NearestEven (2 ^ 53 - 1 / 2) (2 ^ 53) := by
  have habs : |(2 ^ 53 - 1 / 2 : ℚ) - ((2 ^ 53 : ℤ) : ℚ)| = 1 / 2 := by
    norm_num
  refine ⟨by rw [habs]; norm_num, fun _ => ?_⟩
  exact ⟨2 ^ 52, by norm_num⟩

lemma Units.exponent_lt (h : Units q r t) (hq : q < rangeEnd) :
    (r < 2 ^ 53 → t < 972) ∧ (r = 2 ^ 53 → t < 971) := by
  rw [rangeEnd_eq] at hq
  have hlow : t ≠ -1074 → (2 : ℚ) ^ 52 * 2 ^ t ≤ q := h.full.resolve_left
  have hunit := unit_pos 971
  have hbelow : t < 972 := by
    by_contra hge
    have hpow : (2 : ℚ) ^ (971 + 1 : ℤ) ≤ 2 ^ t := zpow_le_zpow_right₀ (by norm_num) (by omega)
    rw [zpow_add₀ (by norm_num : (2 : ℚ) ≠ 0), zpow_one] at hpow
    have hle := hlow (by omega)
    generalize (2 : ℚ) ^ (971 : ℤ) = unit at *
    linarith
  refine ⟨fun _ => hbelow, fun hr => ?_⟩
  by_contra hge
  obtain rfl : t = 971 := by omega
  have hlt : q / 2 ^ (971 : ℤ) < 2 ^ 53 - 1 / 2 := (div_lt_iff₀ hunit).mpr hq
  have hle : (r : ℤ) ≤ 2 ^ 53 - 1 := h.nearest.le_of_lt (by
    generalize q / 2 ^ (971 : ℤ) = y at *
    push_cast
    linarith)
  omega

lemma Units.le_exponent (h : Units q r t) (hq : rangeEnd ≤ q) :
    (r < 2 ^ 53 → 972 ≤ t) ∧ (r = 2 ^ 53 → 971 ≤ t) := by
  rw [rangeEnd_eq] at hq
  have hlt := h.lt
  have habove : 971 ≤ t := by
    by_contra hlt'
    have hpow : (2 : ℚ) ^ (t + 1 : ℤ) ≤ 2 ^ (971 : ℤ) :=
      zpow_le_zpow_right₀ (by norm_num) (by omega)
    rw [zpow_add₀ (by norm_num : (2 : ℚ) ≠ 0), zpow_one] at hpow
    have hunit := unit_pos 971
    generalize (2 : ℚ) ^ (971 : ℤ) = unit at *
    linarith
  refine ⟨fun hr => ?_, fun _ => habove⟩
  by_contra hlt'
  obtain rfl : t = 971 := by omega
  have hle : 2 ^ 53 - 1 / 2 ≤ q / 2 ^ (971 : ℤ) := (le_div_iff₀ (unit_pos 971)).mpr hq
  have hmono := nearestEven_carry.mono h.nearest hle
  omega

lemma Units.unpack_pack (h : Units q r t) (hq : q < rangeEnd) :
    unpack .binary64 (pack .binary64 (ofUnits r t)) = ofUnits r t := by
  obtain ⟨hshort', hcarry'⟩ := h.exponent_lt hq
  have hlowest := h.lowest
  unfold ofUnits
  split_ifs with hr hshort
  · rfl
  · exact (h.canonical hr hshort).unpack_pack (hshort' hshort)
  · have ht := hcarry' (h.eq_pow hshort)
    rw [unpack_pack_normal le_rfl (by norm_num) (by omega), if_neg (by omega)]

lemma Units.unpack_pack_beyond (h : Units q r t) (hq : rangeEnd ≤ q) :
    unpack .binary64 (pack .binary64 (ofUnits r t)) = .infinity .positive := by
  obtain ⟨hshort', hcarry'⟩ := h.le_exponent hq
  have hlowest := h.lowest
  unfold ofUnits
  split_ifs with hr hshort
  · have ht := hshort' (by omega)
    have hfull := h.pow_le (by omega)
    omega
  · have ht := hshort' hshort
    have hfull := h.pow_le (by omega)
    rw [unpack_pack_normal hfull hshort hlowest, if_pos ht]
  · have ht := hcarry' (h.eq_pow hshort)
    rw [unpack_pack_normal le_rfl (by norm_num) (by omega), if_pos (by omega)]

lemma evenMantissa_ofUnits (h : Even r) : EvenMantissa (ofUnits r t) := by
  unfold ofUnits
  split_ifs
  · trivial
  · exact h
  · exact ⟨2 ^ 51, by norm_num⟩

/-- A number of units leaves the nearest double. -/
theorem Units.isNearest (h : Units q r t) (hnonneg : 0 ≤ q)
    (hx : x.toModel.unpack = unpack .binary64 (pack .binary64 (ofUnits r t))) : IsNearest q x := by
  rcases lt_or_ge q rangeEnd with hq | hq
  · rw [h.unpack_pack hq] at hx
    refine .finite (a := r * 2 ^ t) (by rwa [abs_of_nonneg hnonneg]) ?_ (fun y b hy => (h.near hy).1)
      fun y b hy heq => ((h.near hy).2 heq).imp_right fun heven => ?_
    · rw [value, hx, h.value_ofUnits]
    · rw [hx]
      exact evenMantissa_ofUnits heven
  · refine .above hq ?_
    rw [value, hx, h.unpack_pack_beyond hq]
    rfl

lemma evenMantissa_neg {a : UnpackedFloat} (h : EvenMantissa a) : EvenMantissa a.neg := by
  cases a <;> exact h

/-- The double nearest to the negated number is the negated double. -/
theorem IsNearest.neg (h : IsNearest q x) : IsNearest (-q) (-x) := by
  cases h with
  | @finite a inside hvalue near even =>
    have hflip (b : ℚ) : |-q - b| = |q - -b| := by
      rw [← abs_neg]
      ring_nf
    have hback {y : Float} {b : ℚ} (hy : value y = some (rational b)) := value_neg hy
    refine .finite (a := -a) (by rwa [abs_neg]) (value_neg hvalue) (fun y b hy => ?_)
      fun y b hy heq => ?_
    · rw [hflip, hflip, InvolutiveNeg.neg_neg a]
      exact near (-y) (-b) (hback hy)
    · rw [hflip, hflip, InvolutiveNeg.neg_neg a] at heq
      rw [unpack_neg]
      refine (even (-y) (-b) (hback hy) heq).imp (fun heq => ?_) evenMantissa_neg
      rw [← heq, InvolutiveNeg.neg_neg]
  | above beyond hvalue =>
    exact .below (neg_le_neg beyond) (value_neg_top hvalue)
  | below beyond hvalue =>
    exact .above (le_neg.mpr beyond) (value_neg_bot hvalue)

lemma IsNearest.isFinite_iff (h : IsNearest q x) : x.isFinite = true ↔ |q| < rangeEnd := by
  rw [isFinite_iff_value]
  cases h with
  | finite inside hvalue => exact iff_of_true ⟨_, hvalue⟩ inside
  | above beyond hvalue =>
    refine iff_of_false ?_ (not_lt.mpr (beyond.trans (le_abs_self q)))
    rintro ⟨a, ha⟩
    exact (rational_lt_top a).ne (Option.mem_unique ha hvalue)
  | below beyond hvalue =>
    refine iff_of_false ?_ (not_lt.mpr ((le_neg.mpr beyond).trans (neg_le_abs q)))
    rintro ⟨a, ha⟩
    exact (bot_lt_rational a).ne' (Option.mem_unique ha hvalue)

end Nearest

lemma exponent_unpack_lt {b : BitVec Format.binary64.numBits} {s : Sign} {m : ℕ} {e : ℤ} {hm : 0 < m}
    (h : unpack .binary64 b = .finite s m e hm) : e < 972 := by
  have hbias : (Format.exponentBias .binary64 : ℤ) = 1023 := rfl
  have hexp : (@unpackExponent .binary64 b).toNat < 2 ^ 11 := (unpackExponent b).isLt
  unfold UnpackedFloat.unpack at h
  dsimp only at h
  split_ifs at h with hones hnan hzero hmantissa
  · injection h with _ _ he
    have hlow : (@unpackExponent .binary64 b).toNat = 0 := by rw [hzero]; rfl
    rw [← he, hbias, hlow]
    norm_num
  · injection h with _ _ he
    have hne : (@unpackExponent .binary64 b).toNat ≠ 2 ^ 11 - 1 := fun h =>
      hones (BitVec.eq_of_toNat_eq h)
    rw [← he, hbias]
    omega

section Unique

variable {q a b : ℚ} {x y : Float} {m n : ℕ} {e f : ℤ}

lemma exists_double (h : Canonical m e) (he : e < 972) :
    ∃ z : Float, value z = some (rational (m * 2 ^ e)) := by
  refine ⟨⟨Float.Model.pack (.finite .positive m e h.pos)⟩, ?_⟩
  have hunpack : (⟨Float.Model.pack (.finite .positive m e h.pos)⟩ : Float).toModel.unpack =
      unpack .binary64 (pack .binary64 (.finite .positive m e h.pos)) := rfl
  rw [value, hunpack, h.unpack_pack he]
  rfl

lemma Canonical.succ (h : Canonical m e) (heven : Even m) : Canonical (m + 1) e := by
  have hshort := h.short
  have hne : m + 1 ≠ 2 ^ 53 := fun heq =>
    Nat.not_even_iff_odd.mpr heven.add_one (heq ▸ ⟨2 ^ 52, by norm_num⟩)
  exact ⟨Nat.succ_pos m, by omega, h.lowest, h.full.imp_right (Nat.le_succ_of_le)⟩

lemma Canonical.exists_between_zero (h : Canonical n f) (heven : Even n) :
    ∃ (z : Float) (c : ℚ), value z = some (rational c) ∧ 0 < c ∧ c < n * 2 ^ f := by
  have hone : Canonical 1 (-1074) := ⟨one_pos, by norm_num, le_rfl, .inl rfl⟩
  obtain ⟨z, hz⟩ := exists_double hone (by norm_num)
  refine ⟨z, _, hz, hone.value_pos, (hone.lt_iff h).mpr ?_⟩
  have hpos := h.pos
  have hlowest := h.lowest
  obtain ⟨k, hk⟩ := heven
  omega

lemma Canonical.exists_between (h : Canonical m e) (h' : Canonical n f) (he : e < 972)
    (heven : Even m) (heven' : Even n) (hlt : (m * 2 ^ e : ℚ) < n * 2 ^ f) :
    ∃ (z : Float) (c : ℚ), value z = some (rational c) ∧ m * 2 ^ e < c ∧ c < n * 2 ^ f := by
  have hnext := h.succ heven
  obtain ⟨z, hz⟩ := exists_double hnext he
  refine ⟨z, _, hz, (h.lt_iff hnext).mpr (.inr ⟨rfl, Nat.lt_succ_self m⟩), (hnext.lt_iff h').mpr ?_⟩
  refine ((h.lt_iff h').mp hlt).imp_right fun ⟨heq, hmn⟩ => ⟨heq, ?_⟩
  obtain ⟨j, hj⟩ := heven
  obtain ⟨k, hk⟩ := heven'
  omega

lemma exists_positive (hx : value x = some (rational a)) (hpos : 0 < a) : ∃ m e hm,
    x.toModel.unpack = .finite .positive m e hm ∧ Canonical m e ∧ (m * 2 ^ e : ℚ) = a := by
  have hproper := proper x
  unfold value at hx
  generalize x.toModel.unpack = u at hx hproper
  rcases u with (_ | _) | _ | _ | ⟨_ | _, m, e, hm⟩ <;> simp [valueOf] at hx
  case infinity.negative => exact absurd hx (bot_lt_rational a).ne
  case infinity.positive => exact absurd hx (rational_lt_top a).ne'
  case zero => exact absurd hx hpos.ne
  case finite.negative =>
    have hvalue := Canonical.value_pos hproper
    linarith
  case finite.positive => exact ⟨m, e, hm, rfl, hproper, hx⟩

lemma exists_between_of_nonneg (hx : value x = some (rational a)) (hy : value y = some (rational b))
    (hevenx : EvenMantissa x.toModel.unpack) (heveny : EvenMantissa y.toModel.unpack)
    (hnonneg : 0 ≤ a) (hlt : a < b) :
    ∃ (z : Float) (c : ℚ), value z = some (rational c) ∧ a < c ∧ c < b := by
  obtain ⟨n, f, hn, hyu, hpropery, hb⟩ := exists_positive hy (hnonneg.trans_lt hlt)
  rw [hyu] at heveny
  subst hb
  rcases hnonneg.eq_or_lt with rfl | hpos
  · exact hpropery.exists_between_zero heveny
  · obtain ⟨m, e, hm, hxu, hproperx, ha⟩ := exists_positive hx hpos
    rw [hxu] at hevenx
    subst ha
    exact hproperx.exists_between hpropery (exponent_unpack_lt hxu) hevenx heveny hlt

lemma exists_between (hx : value x = some (rational a)) (hy : value y = some (rational b))
    (hevenx : EvenMantissa x.toModel.unpack) (heveny : EvenMantissa y.toModel.unpack)
    (hlt : a < b) : ∃ (z : Float) (c : ℚ), value z = some (rational c) ∧ a < c ∧ c < b := by
  rcases le_or_gt 0 a with hnonneg | hneg
  · exact exists_between_of_nonneg hx hy hevenx heveny hnonneg hlt
  rcases lt_or_ge 0 b with hpos | hnonpos
  · exact ⟨0, 0, rfl, hneg, hpos⟩
  · obtain ⟨z, c, hz, hbc, hca⟩ := exists_between_of_nonneg (value_neg hy) (value_neg hx)
      (unpack_neg y ▸ evenMantissa_neg heveny) (unpack_neg x ▸ evenMantissa_neg hevenx)
      (neg_nonneg.mpr hnonpos) (neg_lt_neg hlt)
    exact ⟨-z, -c, value_neg hz, by linarith, by linarith⟩

/-- Two different doubles cannot both be the nearest one. -/
lemma not_lt_of_nearest (hx : value x = some (rational a)) (hy : value y = some (rational b))
    (heq : |q - a| = |q - b|) (hevenx : EvenMantissa x.toModel.unpack)
    (heveny : EvenMantissa y.toModel.unpack)
    (hnear : ∀ (z : Float) (c : ℚ), value z = some (rational c) → |q - a| ≤ |q - c|) :
    ¬ a < b := by
  intro hlt
  obtain ⟨z, c, hz, hac, hcb⟩ := exists_between hx hy hevenx heveny hlt
  have hmid : 2 * q = a + b := by
    rcases abs_eq_abs.mp heq with h | h
    · linarith
    · linarith
  have hdist : |q - a| = (b - a) / 2 := by
    rw [abs_of_nonneg (by linarith)]
    linarith
  have hcloser : |q - c| < (b - a) / 2 := abs_lt.mpr ⟨by linarith, by linarith⟩
  linarith [hnear z c hz]

/-- The nearest double is determined up to the sign of zero. -/
theorem IsNearest.value_unique (hx : IsNearest q x) (hy : IsNearest q y) : value x = value y := by
  have hpos := rangeEnd_pos
  cases hx with
  | @finite a inside hvalue near even =>
    cases hy with
    | @finite b _ hvalue' near' even' =>
      have heq : |q - a| = |q - b| := le_antisymm (near y b hvalue') (near' x a hvalue)
      by_cases hab : b = a
      · rw [hvalue, hvalue', hab]
      · have hevenx := (even y b hvalue' heq).resolve_left hab
        have heveny := (even' x a hvalue heq.symm).resolve_left (Ne.symm hab)
        rcases lt_or_gt_of_ne hab with hlt | hlt
        · exact absurd hlt (not_lt_of_nearest hvalue' hvalue heq.symm heveny hevenx near')
        · exact absurd hlt (not_lt_of_nearest hvalue hvalue' heq hevenx heveny near)
    | above beyond => exact absurd (abs_lt.mp inside).2 (not_lt.mpr beyond)
    | below beyond => exact absurd (abs_lt.mp inside).1 (not_lt.mpr beyond)
  | above beyond hvalue =>
    cases hy with
    | finite inside => exact absurd (abs_lt.mp inside).2 (not_lt.mpr beyond)
    | above _ hvalue' => rw [hvalue, hvalue']
    | below beyond' => linarith
  | below beyond hvalue =>
    cases hy with
    | finite inside => exact absurd (abs_lt.mp inside).1 (not_lt.mpr beyond)
    | above beyond' => linarith
    | below _ hvalue' => rw [hvalue, hvalue']

end Unique

end Double

end SimplexTableau
