import SimplexTableau.Proofs.Exact

/-!
# Arithmetics with an order

The tests of the tableau method compare numbers, absolute values and negations. The laws below hold
of rationals and of doubles, where an undefined number compares to nothing and zero has a sign.
They are all that a statement needs that is to hold in both arithmetics.
-/

namespace SimplexTableau

/-- An arithmetic whose comparisons are those of numbers in an order, as far as the numbers are
defined, and whose negation turns the order around zero. -/
class OrderedScalar (α : Type) [Scalar α] : Prop where
  le_of_lt {x y : α} : x < y → x ≤ y
  not_le_of_lt {x y : α} : x < y → ¬ y ≤ x
  le_of_not_lt {x y : α} : x ≤ y → ¬ x < y → y ≤ x
  lt_of_lt_of_le {x y z : α} : x < y → y ≤ z → x < z
  lt_of_le_of_lt {x y z : α} : x ≤ y → y < z → x < z
  neg_neg (x : α) : - -x = x
  neg_lt_zero {x : α} : -x < 0 ↔ 0 < x
  neg_le_zero {x : α} : -x ≤ 0 ↔ 0 ≤ x
  /-- What compares neither way to zero is its own negation. -/
  neg_of_undefined {x : α} : ¬ x ≤ 0 → ¬ 0 ≤ x → -x = x

instance : OrderedScalar ℚ where
  le_of_lt h := le_of_lt h
  not_le_of_lt h := not_le_of_gt h
  le_of_not_lt _ h := not_lt.mp h
  lt_of_lt_of_le h h' := lt_of_lt_of_le h h'
  lt_of_le_of_lt h h' := lt_of_le_of_lt h h'
  neg_neg x := neg_neg x
  neg_lt_zero := neg_lt_zero
  neg_le_zero := neg_nonpos
  neg_of_undefined h h' := absurd (le_of_not_ge h) h'

/-- An undefined number does not even compare to itself. -/
def IsDefined {α : Type} [Scalar α] (x : α) : Prop :=
  x ≤ x

instance {α : Type} [Scalar α] (x : α) : Decidable (IsDefined x) :=
  inferInstanceAs (Decidable (x ≤ x))

/-- An ordered arithmetic in which any two defined numbers compare. -/
class LinearScalar (α : Type) [Scalar α] : Prop extends OrderedScalar α where
  le_total {x y : α} : IsDefined x → IsDefined y → x ≤ y ∨ y ≤ x

instance : LinearScalar ℚ where
  le_total _ _ := le_total _ _

/-- Defined numbers are in a linear order. -/
theorem LinearScalar.not_lt {α : Type} [Scalar α] [LinearScalar α] {x y : α} (hx : IsDefined x)
    (hy : IsDefined y) : ¬ x < y ↔ y ≤ x := by
  constructor
  · intro h
    rcases LinearScalar.le_total hx hy with hle | hle
    · exact OrderedScalar.le_of_not_lt hle h
    · exact hle
  · exact fun hle hlt => OrderedScalar.not_le_of_lt hlt hle

/-- The same number, zeros of either sign counting as one. -/
def SameNumber {α : Type} [Scalar α] (x y : α) : Prop :=
  x = y ∨ (x ≤ 0 ∧ 0 ≤ x) ∧ y ≤ 0 ∧ 0 ≤ y

section Laws

variable {α : Type} [Scalar α] [OrderedScalar α] {x y z : α}

namespace OrderedScalar

lemma lt_trans (h : x < y) (h' : y < z) : x < z :=
  lt_of_lt_of_le h (le_of_lt h')

lemma lt_asymm (h : x < y) : ¬ y < x :=
  fun h' => not_le_of_lt h (le_of_lt h')

lemma zero_lt_neg : 0 < -x ↔ x < 0 := by
  rw [← neg_lt_zero, neg_neg]

lemma zero_le_neg : 0 ≤ -x ↔ x ≤ 0 := by
  rw [← neg_le_zero, neg_neg]

end OrderedScalar

open OrderedScalar (lt_asymm zero_lt_neg zero_le_neg not_le_of_lt)

/-- What exceeds a number does so in absolute value. -/
theorem not_size_le_of_lt (h : y < x) : ¬ size x ≤ y := by
  unfold size
  split_ifs with hx
  · have hpos : y < -x := OrderedScalar.lt_trans (OrderedScalar.lt_trans h hx) (zero_lt_neg.mpr hx)
    exact not_le_of_lt hpos
  · exact not_le_of_lt h

lemma SameNumber.lt_iff_left (h : SameNumber x y) : x < z ↔ y < z := by
  rcases h with rfl | ⟨⟨hx, hx'⟩, hy, hy'⟩
  · exact Iff.rfl
  · constructor
    · intro hlt
      exact OrderedScalar.lt_of_le_of_lt hy (OrderedScalar.lt_of_le_of_lt hx' hlt)
    · intro hlt
      exact OrderedScalar.lt_of_le_of_lt hx (OrderedScalar.lt_of_le_of_lt hy' hlt)

lemma SameNumber.lt_iff_right (h : SameNumber x y) : z < x ↔ z < y := by
  rcases h with rfl | ⟨⟨hx, hx'⟩, hy, hy'⟩
  · exact Iff.rfl
  · constructor
    · intro hlt
      exact OrderedScalar.lt_of_lt_of_le (OrderedScalar.lt_of_lt_of_le hlt hx) hy'
    · intro hlt
      exact OrderedScalar.lt_of_lt_of_le (OrderedScalar.lt_of_lt_of_le hlt hy) hx'

/-- The absolute value does not depend on the sign, except for the sign of zero. -/
theorem size_neg (x : α) : SameNumber (size (-x)) (size x) := by
  unfold size
  rw [OrderedScalar.neg_neg]
  by_cases hneg : x < 0
  · rw [if_neg (lt_asymm (zero_lt_neg.mpr hneg)), if_pos hneg]
    exact Or.inl rfl
  · by_cases hpos : 0 < x
    · rw [if_pos (OrderedScalar.neg_lt_zero.mpr hpos), if_neg hneg]
      exact Or.inl rfl
    · rw [if_neg (mt OrderedScalar.neg_lt_zero.mp hpos), if_neg hneg]
      by_cases hle : x ≤ 0
      · have hge := OrderedScalar.le_of_not_lt hle hneg
        exact Or.inr ⟨⟨OrderedScalar.neg_le_zero.mpr hge, zero_le_neg.mpr hle⟩, hle, hge⟩
      · by_cases hge : 0 ≤ x
        · exact absurd (OrderedScalar.le_of_not_lt hge hpos) hle
        · exact Or.inl (OrderedScalar.neg_of_undefined hle hge)

end Laws

end SimplexTableau
