import SimplexTableau.Tableau.Pivot

/-!
# From the first phase to the second

After a first phase, an artificial variable may still be basic at zero. It is exchanged for
any other column with an entry in its row; a row without one is redundant and keeps it. Then
the saved objective row comes back, with every basic column cleared from it.
-/

namespace SimplexTableau

variable {α : Type} [Scalar α]

/-- An artificial variable that has left the basis for another variable. -/
structure Swap where
  leaving : String
  row : Nat
  entering : String
  deriving Repr, DecidableEq

/-- A tableau together with the exchanges that led to it. -/
structure DrivenOut (α : Type) where
  swaps : List Swap
  tableau : Tableau α

namespace Tableau

/-- The first column of a row that is not artificial and whose entry is not within the
tolerance. -/
def replacement (t : Tableau α) (tol : α) (row : Nat) : Option Nat :=
  ((t.matrix.getD row []).zipIdx.dropLast.drop 1).findSome? fun (v, j) =>
    if t.artificial.contains j || size v ≤ tol then none else some j

/-- Drives the artificial variables out of the listed rows, one row after the other. -/
def driveOutOf (tol : α) : List Nat → Tableau α → Except Fault (DrivenOut α)
  | [], t => .ok ⟨[], t⟩
  | row :: rows, t =>
    match t.basis[row - 1]? with
    | none => .error .outOfRange
    | some b =>
      if t.artificial.contains b then
        match t.replacement tol row with
        | none => driveOutOf tol rows t
        | some col =>
          match t.columns[b]? with
          | none => .error .outOfRange
          | some leaving => do
            let result ← driveOutOf tol rows (← t.pivot row col tol)
            return { result with swaps := ⟨leaving.name, row, t.nameAt col⟩ :: result.swaps }
      else driveOutOf tol rows t

/-- Exchanges every artificial basic variable for another column of its row, where there is
one. -/
def driveOut (t : Tableau α) (tol : α) : Except Fault (DrivenOut α) :=
  driveOutOf tol ((List.range t.rows.length).map (· + 1)) t

/-- Clears the basic columns from an objective row, in the order of the rows. -/
def clearBasics (tol : α) (rows : List (List α)) :
    (basis : List (Nat × Nat)) → (objective : List α) → Except Fault (List α)
  | [], objective => .ok objective
  | (col, r) :: basis, objective =>
    match objective[col]? with
    | none => .error .outOfRange
    | some factor =>
      if tol < size factor then
        match rows[r]? with
        | none => .error .outOfRange
        | some row => clearBasics tol rows basis (subtractMultiple objective factor row)
      else clearBasics tol rows basis objective

/-- Puts the saved objective row back and clears the basic columns from it. -/
def restore (t : Tableau α) (tol : α) : Except Fault (Tableau α) :=
  match t.savedObjective with
  | none => .error .noSavedObjective
  | some saved => do
    let objective ← clearBasics tol t.rows t.basis.zipIdx saved
    return { t with objective, savedObjective := none }

end Tableau

end SimplexTableau
