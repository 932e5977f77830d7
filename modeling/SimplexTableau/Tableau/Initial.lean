import SimplexTableau.Tableau

/-!
# The initial tableau of a problem

Constraints are standardised so that no right-hand side is negative. A `≤` row gets a slack,
a `≥` row a surplus and an artificial, and an equation an artificial column; slack or
artificial is basic. The rows are written one after the other, and a counter for each of the
three groups holds the next free column. The solver always maximises: the objective row holds
the coefficients of a minimisation as they are and those of a maximisation negated. With
artificial columns the objective row is then prepared for the method.
-/

namespace SimplexTableau

variable {α : Type} [Scalar α]

/-- The coefficients in `n` decision columns: a single one is repeated, and any other number
than `n` does not fit. -/
def Constraint.spread (c : Constraint α) (n : Nat) : Except Fault (Constraint α) :=
  if c.coefficients.length = n then .ok c
  else
    match c.coefficients with
    | [v] => .ok { c with coefficients := List.replicate n v }
    | _ => .error .coefficientCount

/-- The numbers of the rows whose relation passes a test. -/
def rowsWhere (test : Relation → Bool) (rows : List (Constraint α)) : List Nat :=
  (rows.zipIdx.filter fun (c, _) => test c.relation).map Prod.snd

/-- The columns for `n` variables and standardised rows. -/
def layout (n : Nat) (rows : List (Constraint α)) : List Column :=
  .objective :: (List.range n).map .decision ++ (rowsWhere (· = .le) rows).map .slack ++
    (rowsWhere (· = .ge) rows).map .surplus ++ (rowsWhere (· ≠ .le) rows).map .artificial ++
    [.rhs]

/-- The next free column of each group. -/
structure Counters where
  slack : Nat
  surplus : Nat
  artificial : Nat

/-- The column in which a row starts basic. -/
def Counters.basic (next : Counters) : Relation → Nat
  | .le => next.slack
  | .ge | .eq => next.artificial

/-- The counters past the columns that a row takes. -/
def Counters.past (next : Counters) : Relation → Counters
  | .le => { next with slack := next.slack + 1 }
  | .ge => { next with surplus := next.surplus + 1, artificial := next.artificial + 1 }
  | .eq => { next with artificial := next.artificial + 1 }

/-- A row with a first and a last cell, cells for the decision columns, and zeros between. -/
def bareRow (width : Nat) (first : α) (decisions : List α) (last : α) : List α :=
  first :: decisions ++ List.replicate (width - decisions.length - 2) 0 ++ [last]

/-- A standardised row with its units in the next free columns. -/
def Constraint.written (c : Constraint α) (width : Nat) (next : Counters) : List α :=
  let bare := bareRow width 0 c.coefficients c.rhs
  match c.relation with
  | .le => bare.set next.slack 1
  | .ge => (bare.set next.surplus (-1)).set next.artificial 1
  | .eq => bare.set next.artificial 1

/-- The constraint rows of a tableau with their basic columns and the artificial columns. -/
structure Placement (α : Type) where
  rows : List (List α)
  basis : List Nat
  artificial : List Nat

/-- Writes standardised rows from the top down. -/
def placeRows (width : Nat) : Counters → List (Constraint α) → Placement α
  | _, [] => ⟨[], [], []⟩
  | next, c :: rest =>
    let below := placeRows width (next.past c.relation) rest
    { rows := c.written width next :: below.rows
      basis := next.basic c.relation :: below.basis
      artificial :=
        if c.relation = .le then below.artificial else next.artificial :: below.artificial }

/-- The objective coefficients with the signs that they have in the objective row. -/
def Problem.signedObjective (p : Problem α) : List α :=
  if p.direction = .min then p.objective else p.objective.map (-·)

/-- The tableau of a problem before its objective row is prepared for a method. -/
def Problem.plainTableau (p : Problem α) : Except Fault (Tableau α) := do
  let rows ← p.constraints.mapM fun c => c.standardised.spread p.numVars
  let columns := layout p.numVars rows
  let slack := 1 + p.numVars
  let surplus := slack + (rowsWhere (· = .le) rows).length
  let artificial := surplus + (rowsWhere (· = .ge) rows).length
  let placement := placeRows columns.length { slack, surplus, artificial } rows
  return {
    columns
    objective := bareRow columns.length 1 p.signedObjective 0
    rows := placement.rows
    basis := placement.basis
    artificial := placement.artificial
    savedObjective := none }

namespace Tableau

/-- The row in which a column is basic. -/
def basicRow (t : Tableau α) (col : Nat) : Except Fault (List α) :=
  match (t.basis.idxOf? col).bind (t.rows[·]?) with
  | some row => .ok row
  | none => .error .outOfRange

/-- Puts a cost on every artificial column of an objective row, then takes the rows in which
these columns are basic away. -/
def takeArtificials (t : Tableau α) (cost : α) (take : List α → List α → List α)
    (objective : List α) : Except Fault (List α) :=
  t.artificial.foldlM (fun o col => do return take o (← t.basicRow col))
    (t.artificial.foldl (fun o col => o.set col cost) objective)

/-- Charges a penalty for every artificial column and clears it from the objective row. -/
def charge (t : Tableau α) (penalty : α) : Except Fault (Tableau α) := do
  let objective ← t.takeArtificials penalty (subtractMultiple · penalty ·) t.objective
  return { t with objective }

/-- Puts the objective row aside for the negated sum of the artificial variables. -/
def startPhaseOne (t : Tableau α) : Except Fault (Tableau α) := do
  let bare := (List.replicate t.columns.length (0 : α)).set 0 1
  let objective ← t.takeArtificials 1 subtractRow bare
  return { t with objective, savedObjective := some t.objective }

end Tableau

/-- The tableau on which a method starts. -/
def Problem.tableau (p : Problem α) (m : Method) (o : SolveOptions α) :
    Except Fault (Tableau α) := do
  let t ← p.plainTableau
  if t.artificial.isEmpty then return t
  match m with
  | .bigM => t.charge (← o.penalty p)
  | .twoPhase => t.startPhaseOne
  | _ => return t

end SimplexTableau
