import Mathlib
import SimplexTableau.Proofs.Ordered

/-!
# Doubles

A double is undefined, an infinity, a zero with a sign, or a sign with a mantissa and an exponent.
Defined doubles compare like their keys, triples of integers in lexicographic order, and negation
negates the key. So doubles obey the laws of an ordered arithmetic, and negating a double twice
gives it back bit by bit.
-/

namespace SimplexTableau

namespace Double

open Float.Model (UnpackedFloat Format)
open Float.Model.UnpackedFloat

/-- The place of a double in the order: its class with its sign, its exponent, its mantissa. An
undefined double has none, and both zeros have the same. -/
def place : UnpackedFloat → Option (ℤ ×ₗ ℤ ×ₗ ℤ)
  | .notANumber => none
  | .infinity .positive => some (toLex (2, toLex (0, 0)))
  | .infinity .negative => some (toLex (-2, toLex (0, 0)))
  | .zero _ => some (toLex (0, toLex (0, 0)))
  | .finite .positive m e _ => some (toLex (1, toLex (e, (m : ℤ))))
  | .finite .negative m e _ => some (toLex (-1, toLex (-e, -(m : ℤ))))

section Comparison

variable {a b : UnpackedFloat}

lemma isLE_compare_then (e f : ℤ) (m n : ℕ) :
    ((compare e f).then (compare m n)).isLE = true ↔ e < f ∨ e = f ∧ m ≤ n := by
  rw [Ordering.isLE_then_iff_or, compare_lt_iff_lt, compare_eq_iff_eq, Std.isLE_compare]

lemma isGE_compare_then (e f : ℤ) (m n : ℕ) :
    ((compare e f).then (compare m n)).isGE = true ↔ f < e ∨ e = f ∧ n ≤ m := by
  rw [← Ordering.isLE_swap, Ordering.swap_then, ← Std.OrientedOrd.eq_swap,
    ← Std.OrientedOrd.eq_swap, isLE_compare_then, eq_comm]

/-- One case for each pair of classes. -/
lemma lt_iff_place : a.lt b = true ↔ ∃ x ∈ place a, ∃ y ∈ place b, x < y := by
  unfold UnpackedFloat.lt
  rcases a with (_ | _) | _ | _ | ⟨_ | _, m, e, hm⟩ <;>
    rcases b with (_ | _) | _ | _ | ⟨_ | _, n, f, hn⟩ <;>
    simp [UnpackedFloat.compare, place, Prod.Lex.toLex_lt_toLex, Ordering.then_eq_lt,
      Ordering.then_eq_gt, compare_lt_iff_lt, compare_gt_iff_gt]
  · decide

lemma le_iff_place : a.le b = true ↔ ∃ x ∈ place a, ∃ y ∈ place b, x ≤ y := by
  unfold UnpackedFloat.le
  rcases a with (_ | _) | _ | _ | ⟨_ | _, m, e, hm⟩ <;>
    rcases b with (_ | _) | _ | _ | ⟨_ | _, n, f, hn⟩ <;>
    simp [UnpackedFloat.compare, place, Prod.Lex.toLex_le_toLex, isLE_compare_then,
      isGE_compare_then]
  all_goals decide

lemma place_neg (a : UnpackedFloat) : place a.neg = (place a).map (-·) := by
  rcases a with (_ | _) | _ | _ | ⟨_ | _, m, e, hm⟩ <;>
    simp [UnpackedFloat.neg, place, ← toLex_neg]

lemma neg_neg (a : UnpackedFloat) : a.neg.neg = a := by
  rcases a with (_ | _) | _ | (_ | _) | ⟨_ | _, m, e, hm⟩ <;> rfl

end Comparison

section Negation

variable {spec : Format}

/-- The same bits with the other sign. -/
def flipSign (b : BitVec spec.numBits) : BitVec spec.numBits :=
  packComponents spec (-Sign.ofBitVec (unpackSign b)) (unpackExponent b) (unpackMantissa b)

lemma unpack_flipSign (b : BitVec spec.numBits) :
    unpack spec (flipSign b) = (unpack spec b).neg := by
  unfold flipSign UnpackedFloat.unpack
  simp only [unpackSign_packComponents, unpackExponent_packComponents,
    unpackMantissa_packComponents, Sign.ofBitVec_toBitVec]
  split_ifs <;> rfl

lemma unpack_pack_neg (b : BitVec spec.numBits) (he : 2 ≤ spec.exponentBits) :
    unpack spec (pack spec (unpack spec b).neg) = (unpack spec b).neg := by
  rw [← unpack_flipSign, pack_unpack _ he]
  split_ifs with hn
  · have hbits := of_decide_eq_true hn
    unfold flipSign at hbits
    rw [unpackExponent_packComponents, unpackMantissa_packComponents] at hbits
    rw [unpack_packedNaN, unpack_flipSign]
    unfold UnpackedFloat.unpack
    simp only [hbits.1, hbits.2, if_true, if_false]
    rfl
  · rfl

lemma unpack_pack (b : BitVec spec.numBits) (he : 2 ≤ spec.exponentBits) :
    unpack spec (pack spec (unpack spec b)) = unpack spec b := by
  have h := unpack_pack_neg (flipSign b) he
  rwa [unpack_flipSign, neg_neg] at h

end Negation

variable {x y : Float}

lemma lt_iff : x < y ↔ ∃ a ∈ place x.toModel.unpack, ∃ b ∈ place y.toModel.unpack, a < b := by
  rw [← lt_iff_place]
  exact decide_eq_true_iff

lemma le_iff : x ≤ y ↔ ∃ a ∈ place x.toModel.unpack, ∃ b ∈ place y.toModel.unpack, a ≤ b := by
  rw [← le_iff_place]
  exact decide_eq_true_iff

lemma unpack_neg (x : Float) : (-x).toModel.unpack = x.toModel.unpack.neg := by
  have hbits : x.toModel.unpack = unpack .binary64 x.toModel.toBits.toBitVec := rfl
  have hneg : (-x).toModel.unpack = unpack .binary64 (pack .binary64 x.toModel.unpack.neg) := rfl
  rw [hneg, hbits]
  exact @unpack_pack_neg .binary64 _ (by decide)

lemma place_zero : place (0 : Float).toModel.unpack = some 0 := rfl

lemma eq_of_unpack (h : x.toModel.unpack = y.toModel.unpack) : x = y := by
  obtain ⟨⟨a, ha⟩⟩ := x
  obtain ⟨⟨b, hb⟩⟩ := y
  have hbits : a.toBitVec = b.toBitVec := (unpack_inj_of_valid ha hb (by decide)).mp h
  obtain rfl := UInt64.toBitVec_inj.mp hbits
  rfl

/-- Taking away zero gives every double back, an undefined one or a negative zero as well. -/
theorem sub_zero (x : Float) : x - 0 = x := by
  have hsub : ∀ a : UnpackedFloat, a.sub .binary64 (.zero .positive) = a := by
    rintro ((_ | _) | _ | (_ | _) | ⟨_ | _, m, e, hm⟩) <;> rfl
  have hbits : x.toModel.unpack = unpack .binary64 x.toModel.toBits.toBitVec := rfl
  have hdiff : (x - 0).toModel.unpack =
      unpack .binary64 (pack .binary64 (x.toModel.unpack.sub .binary64 (.zero .positive))) := rfl
  apply eq_of_unpack
  rw [hdiff, hsub, hbits]
  exact @unpack_pack .binary64 _ (by decide)

lemma place_eq_none {a : UnpackedFloat} (h : place a = none) : a = .notANumber := by
  rcases a with (_ | _) | _ | _ | ⟨_ | _, m, e, hm⟩ <;> simp [place] at h
  rfl

lemma neg_lt_zero : -x < 0 ↔ 0 < x := by
  rw [lt_iff, lt_iff, unpack_neg, place_neg, place_zero]
  cases place x.toModel.unpack with
  | none => simp
  | some a => simp

lemma neg_le_zero : -x ≤ 0 ↔ 0 ≤ x := by
  rw [le_iff, le_iff, unpack_neg, place_neg, place_zero]
  cases place x.toModel.unpack with
  | none => simp
  | some a => simp

lemma neg_of_undefined (h : ¬ x ≤ 0) (h' : ¬ 0 ≤ x) : -x = x := by
  have hplace : place x.toModel.unpack = none := by
    cases hp : place x.toModel.unpack with
    | none => rfl
    | some a =>
      simp [le_iff, place_zero, hp] at h h'
      exact absurd h (lt_asymm h')
  apply eq_of_unpack
  rw [unpack_neg, place_eq_none hplace]
  rfl

lemma nonpos_of_isFinite (h : x.isFinite = true) (h' : ¬ 0 < x) : x ≤ 0 := by
  have hplace : place x.toModel.unpack ≠ none := by
    intro hn
    have hfinite : x.toModel.unpack.isFinite = true := h
    rw [place_eq_none hn] at hfinite
    cases hfinite
  obtain ⟨a, ha⟩ := Option.ne_none_iff_exists'.mp hplace
  simp only [lt_iff, le_iff, place_zero, ha, Option.mem_some_iff, exists_eq_left'] at h' ⊢
  exact not_lt.mp h'

end Double

instance : OrderedScalar Float where
  le_of_lt := by
    intro x y h
    obtain ⟨a, ha, b, hb, hlt⟩ := Double.lt_iff.mp h
    exact Double.le_iff.mpr ⟨a, ha, b, hb, hlt.le⟩
  not_le_of_lt := by
    intro x y h h'
    obtain ⟨a, ha, b, hb, hlt⟩ := Double.lt_iff.mp h
    obtain ⟨b', hb', a', ha', hle⟩ := Double.le_iff.mp h'
    obtain rfl := Option.mem_unique ha ha'
    obtain rfl := Option.mem_unique hb hb'
    exact absurd hle hlt.not_ge
  le_of_not_lt := by
    intro x y h h'
    obtain ⟨a, ha, b, hb, hle⟩ := Double.le_iff.mp h
    have hge : b ≤ a := not_lt.mp fun hlt => h' (Double.lt_iff.mpr ⟨a, ha, b, hb, hlt⟩)
    exact Double.le_iff.mpr ⟨b, hb, a, ha, hge⟩
  lt_of_lt_of_le := by
    intro x y z h h'
    obtain ⟨a, ha, b, hb, hlt⟩ := Double.lt_iff.mp h
    obtain ⟨b', hb', c, hc, hle⟩ := Double.le_iff.mp h'
    obtain rfl := Option.mem_unique hb hb'
    exact Double.lt_iff.mpr ⟨a, ha, c, hc, hlt.trans_le hle⟩
  lt_of_le_of_lt := by
    intro x y z h h'
    obtain ⟨a, ha, b, hb, hle⟩ := Double.le_iff.mp h
    obtain ⟨b', hb', c, hc, hlt⟩ := Double.lt_iff.mp h'
    obtain rfl := Option.mem_unique hb hb'
    exact Double.lt_iff.mpr ⟨a, ha, c, hc, hle.trans_lt hlt⟩
  neg_neg := by
    intro x
    apply Double.eq_of_unpack
    rw [Double.unpack_neg, Double.unpack_neg, Double.neg_neg]
  neg_lt_zero := Double.neg_lt_zero
  neg_le_zero := Double.neg_le_zero
  neg_of_undefined := Double.neg_of_undefined

/-- The undefined doubles are those that are not a number. -/
theorem Double.isDefined_iff (x : Float) : IsDefined x ↔ x.isNaN = false := by
  have hplace : ∀ a : Float.Model.UnpackedFloat,
      (∃ p ∈ Double.place a, ∃ q ∈ Double.place a, p ≤ q) ↔ a.isNaN = false := by
    rintro ((_ | _) | _ | _ | ⟨_ | _, m, e, hm⟩) <;>
      simp [Double.place, Float.Model.UnpackedFloat.isNaN]
  exact Double.le_iff.trans (hplace x.toModel.unpack)

instance : LinearScalar Float where
  le_total := by
    intro x y hx hy
    obtain ⟨a, ha, -⟩ := Double.le_iff.mp hx
    obtain ⟨b, hb, -⟩ := Double.le_iff.mp hy
    rcases le_total a b with hle | hle
    · exact Or.inl (Double.le_iff.mpr ⟨a, ha, b, hb, hle⟩)
    · exact Or.inr (Double.le_iff.mpr ⟨b, hb, a, ha, hle⟩)

end SimplexTableau
