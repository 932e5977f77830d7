import SimplexTableau.Tableau.Pivot
import SimplexTableau.Trace

/-!
# Runs of pivots

A run pivots by Dantzig's rule until no column improves the objective, an improving column
has no pivot row, or the cap on pivots is reached. It records every tableau it meets; the last
step is the only one that is not a pivot.
-/

namespace SimplexTableau

variable {α : Type} [Scalar α]

/-- What stays fixed during a run. Columns in `blocked` never enter the basis, and the first
step is numbered `start`. -/
structure RunSetting (α : Type) where
  phase : Int
  tol : α
  blocked : List Nat := []
  start : Int := 1

/-- What a run does with a tableau. -/
inductive Move where
  /-- No column improves the objective. -/
  | optimal
  /-- A column improves the objective and has no pivot row. -/
  | unbounded (col : Nat)
  /-- A column enters the basis in place of the basic column of a row. -/
  | exchange (row col : Nat)
  /-- No further pivot is allowed. -/
  | limit
  deriving Repr, DecidableEq

def Move.kind : Move → StepKind
  | .optimal => .optimal
  | .unbounded _ => .unbounded
  | .exchange _ _ => .iteration
  | .limit => .iterationLimit

/-- The recorded steps of a run, how it ended, the number of its pivots, and the tableau it
left behind. -/
structure PivotRun (α : Type) where
  steps : List (TraceStep α)
  ending : Move
  iterations : Nat
  final : Tableau α

namespace Tableau

/-- What Dantzig's rule does with a tableau. -/
def move (t : Tableau α) (tol : α) (blocked : List Nat) : Move :=
  match t.entering tol blocked with
  | none => .optimal
  | some col =>
    match t.leaving tol col with
    | none => .unbounded col
    | some row => .exchange row col

/-- All rows with their names; the objective row is called `W` in the first phase. -/
def snapshot (t : Tableau α) (phase : Int) : Except Fault (List (TableauRow α)) := do
  let names ← t.basicNames
  if names.length < t.rows.length then throw .outOfRange
  return List.zipWith (fun name row => ⟨name, row, rhsOf row⟩)
    ((if phase = 1 then "W" else "Z") :: names) t.matrix

/-- The sentence that describes a step after `done` pivots. -/
def describe (t : Tableau α) (phase : Int) (done : Nat) (names : List String) : Move → String
  | .optimal =>
    let label := if 0 < phase then s!"Phase {phase}" else "Final"
    s!"Optimal solution found ({label})."
  | .unbounded col =>
    s!"Unbounded solution detected: entering variable {t.nameAt col} has no positive pivot."
  | .exchange row col =>
    let leaving := names.getD (row - 1) ""
    s!"Iteration {done + 1}: {t.nameAt col} enters, {leaving} leaves. " ++
      s!"Pivot at row {row}, column {col}."
  | .limit => s!"Iteration limit of {done} reached without convergence; treated as unbounded."

/-- The step that records a tableau and the move made on it after `done` pivots. -/
def record (t : Tableau α) (s : RunSetting α) (done : Nat) (move : Move) :
    Except Fault (TraceStep α) := do
  let rows ← t.snapshot s.phase
  let names ← t.basicNames
  let step : TraceStep α := {
    index := s.start + done
    kind := move.kind
    description := t.describe s.phase done names move
    headers := t.headers
    rows
    basicVars := names
    phase := s.phase
    isPhaseOne := s.phase = 1 }
  match move with
  | .unbounded col => return { step with pivotCol := some col, enteringVar := some (t.nameAt col) }
  | .exchange row col =>
    return { step with
      pivotRow := some row
      pivotCol := some col
      enteringVar := some (t.nameAt col)
      leavingVar := some (names.getD (row - 1) "") }
  | _ => return step

/-- Runs at most `remaining` more pivots after the `done` ones made before. -/
def run (s : RunSetting α) : (remaining done : Nat) → Tableau α → Except Fault (PivotRun α)
  | 0, done, t => do
    return ⟨[← t.record s done .limit], .limit, done, t⟩
  | remaining + 1, done, t => do
    let move := t.move s.tol s.blocked
    let step ← t.record s done move
    match move with
    | .exchange row col => do
      let rest ← run s remaining (done + 1) (← t.pivot row col s.tol)
      return { rest with steps := step :: rest.steps }
    | _ => return ⟨[step], move, done, t⟩

end Tableau

end SimplexTableau
