/-!
# Traces

A solution is reported with the tableaux it went through. Each step holds the whole tableau
at that moment and what was done next; the last step of a phase says why the phase ended.
-/

namespace SimplexTableau

/-- What a step records: a pivot, or one of the three ways in which a phase ends. -/
inductive StepKind where
  | iteration
  | optimal
  | unbounded
  | iterationLimit
  deriving Repr, DecidableEq

def StepKind.name : StepKind → String
  | .iteration => "iteration"
  | .optimal => "optimal"
  | .unbounded => "unbounded"
  | .iterationLimit => "iteration_limit"

/-- A row of a recorded tableau, with the name of its basic variable. -/
structure TableauRow (α : Type) where
  basicVar : String
  coefficients : List α
  rhs : α
  deriving Repr, DecidableEq

/-- A recorded tableau and what was done with it. -/
structure TraceStep (α : Type) where
  index : Int
  kind : StepKind
  description : String
  headers : List String
  rows : List (TableauRow α)
  basicVars : List String
  pivotRow : Option Int := none
  pivotCol : Option Int := none
  enteringVar : Option String := none
  leavingVar : Option String := none
  phase : Int := 0
  isPhaseOne : Bool := false
  deriving Repr, DecidableEq

/-- Whether a step is the last one of its phase. -/
def TraceStep.isTerminal {α : Type} (s : TraceStep α) : Bool :=
  s.kind ≠ .iteration

/-- How a solution can end. -/
inductive Status where
  | optimal
  | infeasible
  | unbounded
  | error
  deriving Repr, DecidableEq

def Status.name : Status → String
  | .optimal => "optimal"
  | .infeasible => "infeasible"
  | .unbounded => "unbounded"
  | .error => "error"

/-- The result of a solution. `feasibleBasis` says that a basis with every artificial variable
at zero was reached. -/
structure SolveResult (α : Type) where
  status : Status
  steps : List (TraceStep α) := []
  values : List (String × α) := []
  objectiveValue : Option α := none
  iterations : Int := 0
  message : String := ""
  feasibleBasis : Bool := false
  deriving Repr, DecidableEq

end SimplexTableau
