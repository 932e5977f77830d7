import SimplexTableau.Proofs.Exact
import SimplexTableau.Problem

/-!
# Constraints at a point

The amount by which a point keeps a constraint, and constraints that hold up to a tolerance.
Standardising a constraint changes neither.
-/

namespace SimplexTableau

namespace Constraint

variable (c : Constraint ℚ) (x : List ℚ)

/-- The slack or surplus amount of a constraint at a point. -/
def gap : ℚ :=
  match c.relation with
  | .le => c.rhs - dot c.coefficients x
  | .ge => dot c.coefficients x - c.rhs
  | .eq => 0

/-- Whether a point satisfies a constraint up to a tolerance. -/
def HoldsWithin (tol : ℚ) : Prop :=
  match c.relation with
  | .le => dot c.coefficients x ≤ c.rhs + tol
  | .ge => c.rhs - tol ≤ dot c.coefficients x
  | .eq => |dot c.coefficients x - c.rhs| ≤ tol

lemma gap_standardised : c.standardised.gap x = c.gap x := by
  unfold standardised
  split_ifs with hneg
  · cases h : c.relation <;> simp only [gap, negated, h, Relation.flipped, dot_negated]
    · ring
    · ring
  · rfl

lemma holds_standardised_iff : c.standardised.Holds x ↔ c.Holds x := by
  unfold standardised
  split_ifs with hneg
  · cases h : c.relation <;> simp only [Holds, negated, h, Relation.flipped, dot_negated]
    · exact neg_le_neg_iff
    · exact neg_le_neg_iff
    · exact neg_inj
  · rfl

lemma holdsWithin_standardised_iff (tol : ℚ) :
    c.standardised.HoldsWithin x tol ↔ c.HoldsWithin x tol := by
  unfold standardised
  split_ifs with hneg
  · cases h : c.relation <;> simp only [HoldsWithin, negated, h, Relation.flipped, dot_negated]
    · constructor <;> intro hle <;> linarith
    · constructor <;> intro hle <;> linarith
    · rw [neg_sub_neg, abs_sub_comm]
  · rfl

lemma holdsWithin_zero_iff : c.HoldsWithin x 0 ↔ c.Holds x := by
  cases h : c.relation <;> simp only [HoldsWithin, Holds, h, add_zero, sub_zero, abs_nonpos_iff]
  rw [sub_eq_zero]

variable {c x}

lemma Holds.gap_nonneg (h : c.Holds x) : 0 ≤ c.gap x := by
  unfold Holds at h
  unfold gap
  cases hr : c.relation <;> simp only [hr] at h ⊢
  · exact sub_nonneg.mpr h
  · exact sub_nonneg.mpr h
  · rfl

end Constraint

namespace Problem

/-- The cheapest mixture of two foods. -/
def diet : Problem ℚ where
  direction := .min
  objective := [3, 2]
  constraints := [⟨"c1", [1, 2], .ge, 8⟩, ⟨"c2", [3, 1], .ge, 6⟩]

lemma diet_valid : diet.Valid :=
  ⟨Or.inr rfl, by simp [diet], by decide +kernel⟩

end Problem

end SimplexTableau
