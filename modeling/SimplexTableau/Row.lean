import SimplexTableau.Scalar

/-!
# Rows of numbers

Tableau rows and coefficient lists are lists of numbers. Row operations go entry by entry, and
a row of a tableau ends in its right-hand side.
-/

namespace SimplexTableau

variable {α : Type} [Scalar α]

/-- Subtracts `factor` times a row from a row, entry by entry. -/
def subtractMultiple (row : List α) (factor : α) (other : List α) : List α :=
  List.zipWith (fun a b => a - factor * b) row other

/-- Subtracts a row from a row, entry by entry. -/
def subtractRow (row other : List α) : List α :=
  List.zipWith (· - ·) row other

/-- The sum of products of corresponding entries. -/
def dot : List α → List α → α
  | a :: as, b :: bs => a * b + dot as bs
  | _, _ => 0

/-- The right-hand side of a row is its last entry. -/
def rhsOf (row : List α) : α :=
  row.getLastD 0

theorem length_subtractMultiple (row other : List α) (factor : α) :
    (subtractMultiple row factor other).length = min row.length other.length := by
  simp [subtractMultiple]

theorem length_subtractRow (row other : List α) :
    (subtractRow row other).length = min row.length other.length := by
  simp [subtractRow]

end SimplexTableau
