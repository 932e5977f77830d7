import SimplexTableau.Form
import SimplexTableau.Options
import SimplexTableau.Record.Check
import SimplexTableau.Reference
import SimplexTableau.Tableau
import SimplexTableau.Trace

/-!
# Records from JSON

The fields of every record, with their defaults and bounds. Unknown fields are ignored. The
parts of a problem must also fit together, which is checked once all fields are sound.
-/

namespace SimplexTableau.Record

open Reader

/-- The name and the part of a column, as records carry them. -/
structure Heading where
  name : String
  role : ColumnRole
  deriving Repr, DecidableEq

def direction : Reader Direction :=
  oneOf [("max", .max), ("min", .min)]

def relation : Reader Relation :=
  oneOf [("<=", .le), (">=", .ge), ("=", .eq)]

def status : Reader Status :=
  oneOf ([.optimal, .infeasible, .unbounded, .error].map fun s => (s.name, s))

def stepKind : Reader StepKind :=
  oneOf ([.iteration, .optimal, .unbounded, .iterationLimit].map fun k => (k.name, k))

def columnRole : Reader ColumnRole :=
  oneOf ([.objective, .decision, .slack, .surplus, .artificial, .rhs].map fun r => (r.name, r))
    .enumeration

def heading : Reader Heading := record fun o =>
  Heading.mk <$> required o "name" string <*> required o "role" columnRole

def constraint : Reader (Constraint Float) := record fun o =>
  Constraint.mk <$> required o "id" string <*> required o "coefficients" (list float)
    <*> required o "relation" relation <*> defaulted o "rhs" float 0

/-- A problem whose parts need not fit together. -/
def looseProblem : Reader (Problem Float) := record fun o =>
  Problem.mk <$> defaulted o "direction" direction .max <*> required o "objective" (list float)
    <*> defaulted o "constraints" (list constraint) []

def problem : Reader (Problem Float) := fun value =>
  (looseProblem value).andThen fun p =>
    match p.shapeFault? with
    | some fault => .fail (.rule fault.message)
    | none => .ok p

def solveOptions : Reader (SolveOptions Float) := record fun o =>
  let base : SolveOptions Float := {}
  SolveOptions.mk <$> (Int.toNat <$> defaulted o "max_iters" (atLeast 1) base.maxIters)
    <*> defaulted o "tol" (above 0) base.tol
    <*> defaulted o "feasibility_tol" (above 0) base.feasibilityTol
    <*> defaulted o "big_m" (optional float) base.bigM
    <*> defaulted o "big_m_scale" (above 0) base.bigMScale
    <*> defaulted o "big_m_floor" (above 0) base.bigMFloor

def tableauRow : Reader (TableauRow Float) := record fun o =>
  TableauRow.mk <$> required o "basic_var" string <*> required o "coefficients" (list float)
    <*> required o "rhs" float

def traceStep : Reader (TraceStep Float) := record fun o =>
  TraceStep.mk <$> required o "step_index" int <*> required o "kind" stepKind
    <*> required o "description" string <*> required o "headers" (list string)
    <*> required o "rows" (list tableauRow) <*> required o "basic_vars" (list string)
    <*> defaulted o "pivot_row" (optional int) none <*> defaulted o "pivot_col" (optional int) none
    <*> defaulted o "entering_var" (optional string) none
    <*> defaulted o "leaving_var" (optional string) none
    <*> defaulted o "phase" int 0 <*> defaulted o "is_phase1" bool false

def solveResult : Reader (SolveResult Float) := record fun o =>
  SolveResult.mk <$> required o "status" status <*> defaulted o "steps" (list traceStep) []
    <*> defaulted o "values" (table float) []
    <*> defaulted o "objective_value" (optional float) none
    <*> defaulted o "iterations" int 0 <*> defaulted o "message" string ""
    <*> defaulted o "feasible_basis" bool false

def formLimits : Reader FormLimits := record fun o =>
  let base : FormLimits := {}
  FormLimits.mk <$> defaulted o "min_vars" int base.minVars
    <*> defaulted o "max_vars" int base.maxVars
    <*> defaulted o "min_constraints" int base.minConstraints
    <*> defaulted o "max_constraints" int base.maxConstraints
    <*> defaulted o "initial_vars" int base.initialVars
    <*> defaulted o "initial_constraints" int base.initialConstraints

def referenceSolution : Reader (ReferenceSolution Float) := record fun o =>
  ReferenceSolution.mk <$> required o "status" status
    <*> required o "objective_value" (optional float)
    <*> required o "values" (optional (table float)) <*> defaulted o "message" string ""

end SimplexTableau.Record
