import SimplexTableau.Proofs.Doubles
import SimplexTableau.Decimal.Numeral

/-!
# Doubles without a minus sign

Rounding keeps signs, and so do products and quotients. So the double nearest to a decimal number
has no minus sign, not even as a zero, and adding it to zero gives it back.
-/

namespace SimplexTableau

namespace Double

open Float.Model (UnpackedFloat Format)
open Float.Model.UnpackedFloat

/-- The sign of a double; an undefined one counts as positive. -/
def signOf : UnpackedFloat → Sign
  | .infinity s | .zero s | .finite s _ _ _ => s
  | .notANumber => .positive

/-- Whether a double has no minus sign. -/
def Unsigned (x : Float) : Prop :=
  signOf x.toModel.unpack = .positive

section Unpacked

variable {spec : Format} {a b : UnpackedFloat}

lemma signOf_roundWithAccuracy (s : Sign) (m : ℕ) (e : ℤ) (acc : Accuracy) :
    signOf (roundWithAccuracy spec s m e acc) = s := by
  unfold roundWithAccuracy
  dsimp only
  split_ifs <;> rfl

lemma signOf_mul (ha : signOf a = .positive) (hb : signOf b = .positive) :
    signOf (UnpackedFloat.mul spec a b) = .positive := by
  rcases a with s | _ | s | ⟨s, m, e, hm⟩ <;> rcases b with t | _ | t | ⟨t, n, f, hn⟩ <;>
    simp only [signOf] at ha hb <;> subst_vars <;> try rfl
  exact signOf_roundWithAccuracy _ _ _ _

lemma signOf_div (ha : signOf a = .positive) (hb : signOf b = .positive) :
    signOf (UnpackedFloat.div spec a b) = .positive := by
  rcases a with s | _ | s | ⟨s, m, e, hm⟩ <;> rcases b with t | _ | t | ⟨t, n, f, hn⟩ <;>
    simp only [signOf] at ha hb <;> subst_vars <;> try rfl
  exact signOf_roundWithAccuracy _ _ _ _

lemma signOf_ofNat (n : ℕ) : signOf (UnpackedFloat.ofNat spec n) = .positive := by
  unfold UnpackedFloat.ofNat UnpackedFloat.ofInt UnpackedFloat.normalize
  split
  · next h => exact absurd (compare_lt_iff_lt.mp h) (by simp)
  · rfl
  · exact signOf_roundWithAccuracy _ _ _ _

lemma signOf_ofScientific (m : ℕ) (e : ℤ) :
    signOf (UnpackedFloat.ofScientific spec m e) = .positive := by
  unfold UnpackedFloat.ofScientific
  split_ifs
  · rfl
  · rfl
  · rfl
  · exact signOf_mul rfl rfl
  · exact signOf_div rfl rfl

/-- The sign is a bit of its own. -/
lemma pack_eq (a : UnpackedFloat) : ∃ e m, pack spec a = packComponents spec (signOf a) e m := by
  rcases a with s | _ | s | ⟨s, m, e, hm⟩
  · exact ⟨_, _, rfl⟩
  · exact ⟨_, _, rfl⟩
  · exact ⟨_, _, rfl⟩
  · unfold pack
    dsimp only
    split_ifs <;> exact ⟨_, _, rfl⟩

lemma signOf_unpack {b : BitVec spec.numBits} (h : unpackSign b = 0#1) :
    signOf (unpack spec b) = .positive := by
  unfold UnpackedFloat.unpack
  simp only [h]
  split_ifs <;> rfl

lemma signOf_unpack_pack (spec) (h : signOf a = .positive) :
    signOf (unpack spec (pack spec a)) = .positive := by
  obtain ⟨e, m, ha⟩ := @pack_eq spec a
  apply signOf_unpack
  rw [ha, unpackSign_packComponents, h]
  rfl

end Unpacked

variable {x y : Float}

lemma Unsigned.mul (hx : Unsigned x) (hy : Unsigned y) : Unsigned (x * y) :=
  signOf_unpack_pack .binary64 (signOf_mul hx hy)

lemma Unsigned.div (hx : Unsigned x) (hy : Unsigned y) : Unsigned (x / y) :=
  signOf_unpack_pack .binary64 (signOf_div hx hy)

lemma unsigned_toFloat (n : UInt64) : Unsigned n.toFloat :=
  signOf_unpack_pack .binary64 (signOf_ofNat n.toNat)

lemma unsigned_powerOfTen (e : Fin Float.exactlyRepresentablePowersOfTen.size) :
    Unsigned Float.exactlyRepresentablePowersOfTen[e] := by
  have hsign : ∀ e : Fin Float.exactlyRepresentablePowersOfTen.size,
      @unpackSign .binary64 Float.exactlyRepresentablePowersOfTen[e].toModel.toBits.toBitVec =
        0#1 := by
    decide +kernel
  exact signOf_unpack (hsign e)

lemma unsigned_ofScientific (m : ℕ) (s : Bool) (e : ℕ) : Unsigned (Float.ofScientific m s e) := by
  unfold Float.ofScientific
  split_ifs with h
  · have he : e < Float.exactlyRepresentablePowersOfTen.size := Nat.lt_succ_of_le h.2
    exact (unsigned_toFloat _).div (unsigned_powerOfTen ⟨e, he⟩)
  · have he : e < Float.exactlyRepresentablePowersOfTen.size := Nat.lt_succ_of_le h.2
    exact (unsigned_toFloat _).mul (unsigned_powerOfTen ⟨e, he⟩)
  · exact signOf_unpack_pack .binary64 (signOf_ofScientific m _)
  · exact signOf_unpack_pack .binary64 (signOf_ofScientific m _)

/-- The double nearest to a decimal number has no minus sign. -/
theorem unsigned_nearestDouble (digits : ℕ) (exponent : ℤ) :
    Unsigned (Decimal.nearestDouble digits exponent) := by
  unfold Decimal.nearestDouble
  dsimp only
  split_ifs
  · exact unsigned_ofScientific 0 true 1
  · exact (unsigned_ofScientific 10 true 1).div (unsigned_ofScientific 0 true 1)
  · split <;> exact unsigned_ofScientific _ _ _

/-- Adding to zero changes no double that has no minus sign. -/
theorem Unsigned.zero_add (h : Unsigned x) : 0 + x = x := by
  have hadd : ∀ a : UnpackedFloat, signOf a = .positive →
      UnpackedFloat.add .binary64 (.zero .positive) a = a := by
    rintro (s | _ | s | ⟨s, m, e, hm⟩) hs <;> simp only [signOf] at hs <;> subst_vars <;> rfl
  have hbits : x.toModel.unpack = unpack .binary64 x.toModel.toBits.toBitVec := rfl
  have hsum : (0 + x).toModel.unpack =
      unpack .binary64 (pack .binary64 (.add .binary64 (.zero .positive) x.toModel.unpack)) := rfl
  apply eq_of_unpack
  rw [hsum, hadd _ h, hbits]
  exact @unpack_pack .binary64 _ (by decide)

end Double

end SimplexTableau
