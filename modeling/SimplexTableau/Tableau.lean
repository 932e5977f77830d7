import SimplexTableau.Options

/-!
# Tableaux

A tableau is an objective row and one row for each constraint over a common list of columns:
the objective value, the variables, and the right-hand side last. Each constraint row has a
basic column. Rows are numbered from the objective row, which is row 0.
-/

namespace SimplexTableau

/-- What a column stands for; variables are numbered from zero and named from one. -/
inductive Column where
  | objective
  | decision (index : Nat)
  | slack (row : Nat)
  | surplus (row : Nat)
  | artificial (row : Nat)
  | rhs
  deriving Repr, DecidableEq

/-- The part that a column plays. -/
inductive ColumnRole where
  | objective
  | decision
  | slack
  | surplus
  | artificial
  | rhs
  deriving Repr, DecidableEq

def ColumnRole.name : ColumnRole → String
  | .objective => "objective"
  | .decision => "decision"
  | .slack => "slack"
  | .surplus => "surplus"
  | .artificial => "artificial"
  | .rhs => "rhs"

namespace Column

def name : Column → String
  | .objective => "Z"
  | .decision j => s!"x{j + 1}"
  | .slack i => s!"s{i + 1}"
  | .surplus i => s!"e{i + 1}"
  | .artificial i => s!"a{i + 1}"
  | .rhs => "RHS"

def role : Column → ColumnRole
  | .objective => .objective
  | .decision _ => .decision
  | .slack _ => .slack
  | .surplus _ => .surplus
  | .artificial _ => .artificial
  | .rhs => .rhs

/-- Columns that stand for a variable. -/
def isVariable (c : Column) : Bool :=
  c ≠ .objective && c ≠ .rhs

end Column

/-- A working tableau. `artificial` lists the artificial columns, and `savedObjective` is the
objective row that a first phase has put aside. -/
structure Tableau (α : Type) where
  columns : List Column
  objective : List α
  rows : List (List α)
  basis : List Nat
  artificial : List Nat
  savedObjective : Option (List α)
  deriving Repr, DecidableEq

namespace Tableau

variable {α : Type}

/-- All rows, the objective row first. -/
def matrix (t : Tableau α) : List (List α) :=
  t.objective :: t.rows

def headers (t : Tableau α) : List String :=
  t.columns.map Column.name

/-- The position of the last column. -/
def rhsCol (t : Tableau α) : Nat :=
  t.columns.length - 1

/-- The name of a column, empty outside the tableau. -/
def nameAt (t : Tableau α) (col : Nat) : String :=
  (t.columns[col]?.map Column.name).getD ""

/-- The names of the basic columns. -/
def basicNames (t : Tableau α) : Except Fault (List String) :=
  t.basis.mapM fun col =>
    match t.columns[col]? with
    | some c => .ok c.name
    | none => .error .outOfRange

/-- A cell, if there is one. -/
def cell? (t : Tableau α) (row col : Nat) : Option α :=
  t.matrix[row]?.bind (·[col]?)

/-- Overwrites one cell. -/
def setCell (t : Tableau α) (row col : Nat) (value : α) : Except Fault (Tableau α) :=
  match t.cell? row col with
  | none => .error .outOfRange
  | some _ =>
    match row with
    | 0 => .ok { t with objective := t.objective.set col value }
    | r + 1 => .ok { t with rows := t.rows.modify r (·.set col value) }

section Values

variable [Scalar α]

/-- The value of a column at the basic solution: the right-hand side of the last row in which
it is basic, or zero. -/
def valueAt (t : Tableau α) (col : Nat) : α :=
  (t.basis.zip t.rows).foldl (fun v (b, row) => if b = col then clean (rhsOf row) else v) 0

/-- The values of all variables by name. Any other column counts once it is basic. -/
def values (t : Tableau α) : List (String × α) :=
  t.columns.zipIdx.filterMap fun (c, col) =>
    if c.isVariable || t.basis.contains col then some (c.name, t.valueAt col) else none

/-- The artificial variables that are basic with a value above the tolerance. -/
def basicArtificials (t : Tableau α) (feasibilityTol : α) : List String :=
  (t.basis.zip t.rows).filterMap fun (b, row) =>
    match t.columns[b]? with
    | some (.artificial i) =>
      if feasibilityTol < rhsOf row then some (Column.artificial i).name else none
    | _ => none

/-- Whether every basis entry names a column and has a row. -/
def basisInRange (t : Tableau α) : Bool :=
  t.basis.length ≤ t.rows.length && t.basis.all (· < t.columns.length)

end Values

end Tableau

end SimplexTableau
