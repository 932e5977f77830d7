import SimplexTableau.Solve.Result

/-!
# The journal of a solution

While a problem is solved, the choice of the penalty, every pivot, every exchange at the end
of the first phase and the outcome are written to a journal. All entries are read off the
course of the solution.
-/

namespace SimplexTableau

variable {α : Type} [Scalar α]

/-- How important a journal entry is. -/
inductive Level where
  | debug
  | info
  | warning
  | error
  deriving Repr, DecidableEq

def Level.name : Level → String
  | .debug => "DEBUG"
  | .info => "INFO"
  | .warning => "WARNING"
  | .error => "ERROR"

/-- A journal entry under the name of the part that wrote it. -/
structure Entry where
  level : Level
  source : String
  message : String
  deriving Repr, DecidableEq

/-- The parts that write to the journal. -/
def normaliserSource : String := "lp_tableau.lp.tableau"
def pivotSource : String := "lp_tableau.lp.pivot"
def solverSource : String := "lp_tableau.lp.simplex"

/-- The number in the pivot cell of a step. -/
def TraceStep.pivotValue (s : TraceStep α) (row col : Nat) : α :=
  ((s.rows[row]?.map (·.coefficients)).getD []).getD col 0

/-- The entry for a step, the first step of its run being number `start`. -/
def TraceStep.entry (start : Int) (s : TraceStep α) : Entry :=
  let done := s.index - start
  let entering := s.enteringVar.getD ""
  let leaving := s.leavingVar.getD ""
  let message :=
    match s.kind with
    | .iteration =>
      let row := s.pivotRow.getD 0
      let col := s.pivotCol.getD 0
      let value := Scalar.message (s.pivotValue row.toNat col.toNat)
      s!"Phase {s.phase} pivot {done + 1}: {entering} enters, {leaving} leaves " ++
        s!"(row {row}, col {col}, value {value})"
    | .optimal => s!"Phase {s.phase} optimal after {done} pivot(s)"
    | .unbounded => s!"Phase {s.phase} unbounded on column {entering}"
    | .iterationLimit => s!"Phase {s.phase} stopped at iteration limit {done}"
  ⟨.debug, pivotSource, message⟩

/-- The entries of a run. -/
def PivotRun.entries (r : PivotRun α) : List Entry :=
  match r.steps with
  | [] => []
  | first :: _ => r.steps.map (TraceStep.entry first.index)

/-- The entry for an exchange at the end of the first phase. -/
def Swap.entry (s : Swap) : Entry :=
  ⟨.debug, pivotSource,
    s!"Driving artificial {s.leaving} out of row {s.row} in favour of {s.entering}"⟩

/-- What is written before the first run. -/
def Problem.openingEntries (p : Problem α) (m : Method) (o : SolveOptions α) (artificial : Nat) :
    List Entry :=
  if artificial = 0 then []
  else
    match m with
    | .twoPhase => []
    | .bigM =>
      match o.penalty p with
      | .ok penalty =>
        [⟨.debug, normaliserSource,
          s!"Big-M penalty {Scalar.message penalty} on {artificial} artificial column(s)"⟩]
      | .error _ => []
    | _ =>
      [⟨.warning, solverSource,
        s!"Standard simplex started with {artificial} artificial column(s); " ++
          "result is not guaranteed feasible."⟩]

/-- All entries that a solution writes, in order. -/
def Problem.journal (p : Problem α) (m : Method) (o : SolveOptions α) : List Entry :=
  match p.course m o with
  | .error _ => [⟨.error, solverSource, s!"Tableau solve failed (method={m.name})"⟩]
  | .ok c =>
    let result := c.result p.direction m o
    let second :=
      match c.second with
      | some phase => phase.swaps.map Swap.entry ++ phase.run.entries
      | none => []
    p.openingEntries m o c.start.artificial.length ++ c.first.entries ++ second ++
      [⟨.info, solverSource,
        s!"Solved {p.direction.name} problem with {m.name}: " ++
          s!"status={result.status.name} iterations={result.iterations}"⟩]

end SimplexTableau
