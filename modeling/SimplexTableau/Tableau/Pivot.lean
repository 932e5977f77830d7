import SimplexTableau.Tableau

/-!
# Pivoting

A pivot divides a row by its cell in the pivot column and clears that column from every other
row whose entry exceeds the tolerance. The entering column is the first of those with the most
negative objective entry below the tolerance, the leaving row the first of those with the
least ratio.
-/

namespace SimplexTableau

variable {α : Type} [Scalar α]

/-- Scans candidates for a value below `best` and keeps the last one that was. -/
def lowest {β : Type} (best : α) (held : β) : List (β × α) → β
  | [] => held
  | (b, v) :: rest => if v < best then lowest v b rest else lowest best held rest

/-- Removes a column from a row by means of the normalised pivot row, unless its entry is
within the tolerance. -/
def clearColumn (tol : α) (col : Nat) (pivotRow row : List α) : List α :=
  let factor := row.getD col 0
  if tol < size factor then subtractMultiple row factor pivotRow else row

namespace Tableau

/-- The column that enters: the lowest objective entry below `-tol` among the columns that
are not blocked; the first of equal ones. -/
def entering (t : Tableau α) (tol : α) (blocked : List Nat) : Option Nat :=
  lowest (-tol) none <|
    (t.objective.zipIdx.dropLast.drop 1).filterMap fun (v, j) =>
      if blocked.contains j then none else some (some j, v)

/-- The rows whose entry in a column exceeds the tolerance, with their ratios. -/
def ratios (t : Tableau α) (tol : α) (col : Nat) : List (Nat × α) :=
  (t.rows.zipIdx 1).filterMap fun (row, r) =>
    let c := row.getD col 0
    if tol < c then some (r, rhsOf row / c) else none

/-- The row that leaves: the least ratio; the first of equal ones. -/
def leaving (t : Tableau α) (tol : α) (col : Nat) : Option Nat :=
  match t.ratios tol col with
  | [] => none
  | (r, v) :: rest => some (lowest v r rest)

/-- Divides row `row` by its entry `value` in column `col` and clears the column elsewhere. -/
def reduced (t : Tableau α) (row col : Nat) (value tol : α) : Tableau α :=
  let pivotRow := (t.matrix.getD row []).map (· / value)
  let reduce := fun (r : List α × Nat) =>
    if r.2 = row then pivotRow else clearColumn tol col pivotRow r.1
  { t with
    objective := reduce (t.objective, 0)
    rows := (t.rows.zipIdx 1).map reduce }

/-- Row-reduces on a cell that is larger than the tolerance. -/
def reduce (t : Tableau α) (row col : Nat) (tol : α) : Except Fault (Tableau α) :=
  match t.cell? row col with
  | none => .error .outOfRange
  | some value => if size value ≤ tol then .error .zeroPivot else .ok (t.reduced row col value tol)

/-- Makes a column basic in a row. Row 0 stands for the last entry of the basis. -/
def setBasic (t : Tableau α) (row col : Nat) : Except Fault (Tableau α) :=
  let entry := if row = 0 then t.basis.length - 1 else row - 1
  if entry < t.basis.length then .ok { t with basis := t.basis.set entry col }
  else .error .outOfRange

/-- Row-reduces on a cell and makes its column basic in its row. -/
def pivot (t : Tableau α) (row col : Nat) (tol : α) : Except Fault (Tableau α) := do
  (← t.reduce row col tol).setBasic row col

end Tableau

end SimplexTableau
