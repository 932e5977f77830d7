import Mathlib.LinearAlgebra.Span.Basic
import Mathlib.Algebra.BigOperators.Group.Finset.Basic
import Mathlib.Algebra.BigOperators.Ring.Finset
import Mathlib.Algebra.Module.Pi
import Mathlib.Algebra.Order.BigOperators.Group.Finset
import Mathlib.Algebra.Order.Field.Rat
import Mathlib.Data.List.GetD
import Mathlib.Tactic.Linarith
import Mathlib.Tactic.Ring
import Mathlib.Tactic.FieldSimp
import SimplexTableau.Tableau

/-!
# Exact arithmetic

On rationals the operations of an arithmetic are those of an ordered field. This file puts the
absolute value, the reported zero, dot products and row operations into the terms in which
statements about exact tableaux are made.
-/

namespace SimplexTableau

lemma size_eq_abs (x : ℚ) : size x = |x| := by
  unfold size
  split_ifs with h
  · rw [abs_of_neg h]
  · rw [abs_of_nonneg (not_lt.mp h)]

lemma abs_clean_sub_lt (x : ℚ) : |clean x - x| < 1e-12 := by
  unfold clean
  rw [size_eq_abs]
  split_ifs with h
  · simpa using h
  · norm_num

lemma dot_eq_sum (a b : List ℚ) :
    dot a b = ∑ j ∈ Finset.range a.length, a.getD j 0 * b.getD j 0 := by
  induction a generalizing b with
  | nil => simp [dot]
  | cons x a ih =>
    cases b with
    | nil => simp [dot]
    | cons y b =>
      rw [dot, ih, List.length_cons, Finset.sum_range_succ', add_comm]
      simp

lemma dot_negated (a b : List ℚ) : dot (a.map (-·)) b = -dot a b := by
  induction a generalizing b with
  | nil => simp [dot]
  | cons x a ih =>
    cases b with
    | nil => simp [dot]
    | cons y b =>
      simp only [List.map_cons, dot, ih]
      ring

lemma SolveOptions.valid_default {cap : ℕ} (h : 1 ≤ cap) :
    SolveOptions.Valid ({ maxIters := cap } : SolveOptions ℚ) :=
  ⟨h, by norm_num, by norm_num, by norm_num, by norm_num⟩

section Rows

variable {α : Type} [Scalar α]

lemma rhsOf_eq_getD (row : List α) : rhsOf row = row.getD (row.length - 1) 0 := by
  rw [rhsOf, List.getLastD_eq_getLast?, List.getLast?_eq_getElem?, List.getD_eq_getElem?_getD]

end Rows

lemma getD_map_div (row : List ℚ) (v : ℚ) (j : ℕ) :
    (row.map (· / v)).getD j 0 = row.getD j 0 / v := by
  simp only [List.getD_eq_getElem?_getD, List.getElem?_map]
  cases row[j]? <;> simp

lemma getD_subtractMultiple {row other : List ℚ} (h : row.length = other.length) (f : ℚ) (j : ℕ) :
    (subtractMultiple row f other).getD j 0 = row.getD j 0 - f * other.getD j 0 := by
  simp only [subtractMultiple, List.getD_eq_getElem?_getD, List.getElem?_zipWith]
  by_cases hj : j < row.length
  · have hj' : j < other.length := h ▸ hj
    simp [List.getElem?_eq_getElem hj, List.getElem?_eq_getElem hj']
  · have hj' : other.length ≤ j := h ▸ not_lt.mp hj
    simp [List.getElem?_eq_none (not_lt.mp hj), List.getElem?_eq_none hj']

lemma subtractRow_eq (row other : List ℚ) :
    subtractRow row other = subtractMultiple row 1 other := by
  simp [subtractRow, subtractMultiple]

end SimplexTableau
