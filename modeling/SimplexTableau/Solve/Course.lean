import SimplexTableau.Tableau.Handover
import SimplexTableau.Tableau.Initial
import SimplexTableau.Tableau.Run

/-!
# The course of a solution

All that happens while a problem is solved: the initial tableau, the first run, and, when a
first phase has brought the artificial variables to zero, the handover and the second run.
The verdict and the journal are read off the course.
-/

namespace SimplexTableau

variable {α : Type} [Scalar α]

/-- What follows a successful first phase. -/
structure SecondPhase (α : Type) where
  swaps : List Swap
  start : Tableau α
  run : PivotRun α

/-- The tableaux and runs of a solution. -/
structure Course (α : Type) where
  start : Tableau α
  first : PivotRun α
  second : Option (SecondPhase α)

namespace Course

/-- The tableau from which the answer is read. -/
def final (c : Course α) : Tableau α :=
  match c.second with
  | some phase => phase.run.final
  | none => c.first.final

/-- All recorded steps. -/
def steps (c : Course α) : List (TraceStep α) :=
  match c.second with
  | some phase => c.first.steps ++ phase.run.steps
  | none => c.first.steps

/-- The number of pivots in all runs. -/
def iterations (c : Course α) : Nat :=
  match c.second with
  | some phase => c.first.iterations + phase.run.iterations
  | none => c.first.iterations

end Course

/-- Whether a method works with a first phase on a tableau. -/
def Tableau.hasFirstPhase (t : Tableau α) (m : Method) : Bool :=
  m = .twoPhase && !t.artificial.isEmpty

/-- Hands a finished first phase over to the second one and runs it. -/
def PivotRun.continue (r : PivotRun α) (o : SolveOptions α) : Except Fault (SecondPhase α) := do
  let driven ← r.final.driveOut o.tol
  let start ← driven.tableau.restore o.tol
  let setting := {
    phase := 2, tol := o.tol, blocked := start.artificial, start := r.steps.length + 1 }
  return ⟨driven.swaps, start, ← start.run setting o.maxIters 0⟩

/-- Solves a problem and keeps everything that happened. -/
def Problem.course (p : Problem α) (m : Method) (o : SolveOptions α) :
    Except Fault (Course α) := do
  let start ← p.tableau m o
  if start.hasFirstPhase m then
    let first ← start.run { phase := 1, tol := o.tol } o.maxIters 0
    if first.ending = .optimal ∧ ¬ o.feasibilityTol < size (rhsOf first.final.objective) then
      return ⟨start, first, some (← first.continue o)⟩
    else return ⟨start, first, none⟩
  else return ⟨start, ← start.run { phase := 0, tol := o.tol } o.maxIters 0, none⟩

end SimplexTableau
