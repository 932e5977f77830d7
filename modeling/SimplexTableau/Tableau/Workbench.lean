import SimplexTableau.Tableau.Handover
import SimplexTableau.Tableau.Run

/-!
# Tableaux under manual control

On a workbench a tableau is changed by hand: single pivots, cells and the whole basis. Rows,
columns and basis entries may be counted from the end by negative numbers, and the basis is
shown as it was written.
-/

namespace SimplexTableau

/-- The place of an index in a list of a given length; a negative index counts from the end. -/
def position? (length : Nat) (index : Int) : Option Nat :=
  if 0 ≤ index then
    if index < length then some index.toNat else none
  else if -length ≤ index then some (index + length).toNat
  else none

variable {α : Type}

/-- A tableau and its basis as it was written. The basis of the tableau itself holds the columns
that `written` stands for. -/
structure Workbench (α : Type) where
  tableau : Tableau α
  written : List Int
  deriving Repr, DecidableEq

namespace Workbench

/-- A tableau on the workbench, with its basis counted from the start. -/
def ofTableau (t : Tableau α) : Workbench α :=
  ⟨t, t.basis.map Int.ofNat⟩

/-- The column that an index stands for. -/
def column? (w : Workbench α) (index : Int) : Option Nat :=
  position? w.tableau.columns.length index

/-- The row that an index stands for. -/
def row? (w : Workbench α) (index : Int) : Option Nat :=
  position? w.tableau.matrix.length index

/-- Writes a new basis, each entry of which must name a column. -/
def withBasis (w : Workbench α) (basis : List Int) : Except Fault (Workbench α) :=
  match basis.mapM w.column? with
  | some columns => .ok ⟨{ w.tableau with basis := columns }, basis⟩
  | none => .error .outOfRange

/-- Overwrites one cell. -/
def setCell (w : Workbench α) (row col : Int) (value : α) : Except Fault (Workbench α) :=
  match w.row? row, w.column? col with
  | some r, some c => return { w with tableau := ← w.tableau.setCell r c value }
  | _, _ => .error .outOfRange

section Operations

variable [Scalar α]

/-- Row-reduces on a cell in a row counted from the end. The rows are cleared from the first to
the last by what the pivot row is at the time, and the pivot row does not count as an exception:
it is cleared by itself. -/
def reducedFromEnd (t : Tableau α) (row col : Nat) (value tol : α) : Tableau α :=
  let pivotRow := (t.matrix.getD row []).map (· / value)
  let spent := clearColumn tol col pivotRow pivotRow
  let cleared := t.matrix.zipIdx.map fun (r, i) =>
    if i < row then clearColumn tol col pivotRow r
    else if i = row then spent
    else clearColumn tol col spent r
  match cleared with
  | objective :: rows => { t with objective, rows }
  | [] => t

/-- Row-reduces on a cell that is larger than the tolerance. -/
def reduce (w : Workbench α) (row col : Int) (tol : α) : Except Fault (Tableau α) :=
  match w.row? row, w.column? col with
  | some r, some c =>
    if 0 ≤ row then w.tableau.reduce r c tol
    else
      match w.tableau.cell? r c with
      | none => .error .outOfRange
      | some value =>
        if size value ≤ tol then .error .zeroPivot
        else .ok (reducedFromEnd w.tableau r c value tol)
  | _, _ => .error .outOfRange

/-- Row-reduces on a cell and writes its column into the basis entry in front of its row; in
front of the first row stands the last entry. When there is no such entry, the rows are already
reduced. -/
def pivot (w : Workbench α) (row col : Int) (tol : α) : Workbench α × Option Fault :=
  match w.reduce row col tol with
  | .error fault => (w, some fault)
  | .ok t =>
    match position? w.written.length (row - 1), w.column? col with
    | some entry, some c =>
      (⟨{ t with basis := t.basis.set entry c }, w.written.set entry col⟩, none)
    | _, _ => ({ w with tableau := t }, some .outOfRange)

/-- Runs pivots. Only the rows that are pivoted on get a new entry in the written basis. -/
def run (w : Workbench α) (s : RunSetting α) (maxIters : Nat) :
    Except Fault (PivotRun α × Workbench α) := do
  let r ← w.tableau.run s maxIters 0
  let pivoted := r.steps.filterMap (·.pivotRow)
  let written := (w.written.zip r.final.basis).zipIdx.map fun ((entry, col), i) =>
    if pivoted.contains ((i : Int) + 1) then (col : Int) else entry
  return (r, ⟨r.final, written⟩)

/-- Drives the artificial variables out of the basis. An entry counted from the end is left as
it is, whatever its column. -/
def driveOut (w : Workbench α) (tol : α) : Except Fault (Workbench α) := do
  let counted := w.written.map Int.toNat
  let driven ← { w.tableau with basis := counted }.driveOut tol
  let basis := (w.written.zip w.tableau.basis).zip (counted.zip driven.tableau.basis)
  let entries := basis.map fun ((entry, col), before, after) =>
    if before = after then (entry, col) else ((after : Int), after)
  return ⟨{ driven.tableau with basis := entries.map Prod.snd }, entries.map Prod.fst⟩

/-- Puts the saved objective row back. -/
def restore (w : Workbench α) (tol : α) : Except Fault (Workbench α) :=
  return { w with tableau := ← w.tableau.restore tol }

end Operations

end Workbench

end SimplexTableau
