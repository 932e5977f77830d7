import SimplexTableau.Solve.Result

/-!
# Cross-checks against a reference solver

A problem is handed to another solver as the minimisation of a cost over non-negative
variables under upper bounds and equations. Its answer is turned back into the direction of the
problem and compared with the result of the tableau method.
-/

namespace SimplexTableau

variable {α : Type} [Scalar α]

/-- What the reference solver is asked to minimise. A block without rows is left out, and every
variable is bounded below by zero. -/
structure ReferenceCall (α : Type) where
  cost : List α
  upper : Option (List (List α) × List α)
  equal : Option (List (List α) × List α)
  numVars : Nat
  deriving Repr, DecidableEq

/-- The answer of the reference solver. -/
structure ReferenceAnswer (α : Type) where
  success : Bool
  status : Int
  message : Option String
  value : α
  point : List α

/-- The answer in terms of the problem. -/
structure ReferenceSolution (α : Type) where
  status : Status
  objectiveValue : Option α
  values : Option (List (String × α))
  message : String := ""
  deriving Repr, DecidableEq

/-- The factor between the objective of a direction and the cost. -/
def Direction.costFactor : Direction → α
  | .min => 1
  | _ => -1

/-- A constraint as rows of upper bounds: none for an equation. -/
def Constraint.upperRow (c : Constraint α) : Option (List α × α) :=
  match c.relation with
  | .le => some (c.coefficients, c.rhs)
  | .ge => some (c.coefficients.map (-·), -c.rhs)
  | .eq => none

/-- A constraint as a row of an equation. -/
def Constraint.equalRow (c : Constraint α) : Option (List α × α) :=
  match c.relation with
  | .eq => some (c.coefficients, c.rhs)
  | _ => none

/-- Rows with their bounds, unless there are none. -/
def block (rows : List (List α × α)) : Option (List (List α) × List α) :=
  if rows.isEmpty then none else some rows.unzip

/-- What the reference solver is asked for a problem. -/
def Problem.referenceCall (p : Problem α) : ReferenceCall α where
  cost := p.objective.map (· * p.direction.costFactor)
  upper := block (p.constraints.filterMap Constraint.upperRow)
  equal := block (p.constraints.filterMap Constraint.equalRow)
  numVars := p.numVars

/-- The meaning of the status codes of the reference solver. -/
def Status.ofCode (code : Int) : Status :=
  if code = 0 then .optimal
  else if code = 2 then .infeasible
  else if code = 3 then .unbounded
  else .error

/-- The answer of the reference solver for a problem. A failure without a message has no
solution record. -/
def Problem.referenceSolution (p : Problem α) (a : ReferenceAnswer α) :
    Option (ReferenceSolution α) :=
  if a.success then
    some {
      status := .optimal
      objectiveValue := some (a.value * p.direction.costFactor)
      values := some (a.point.zipIdx.map fun (v, j) => ((Column.decision j).name, v))
      message := a.message.getD "" }
  else
    a.message.map fun message =>
      { status := .ofCode a.status, objectiveValue := none, values := none, message }

/-- Whether two solvers agree, and how far their objective values are apart. -/
structure Comparison (α : Type) where
  agrees : Bool
  confirmed : Bool
  status : Status
  referenceStatus : Status
  objectiveGap : Option α
  deriving Repr, DecidableEq

/-- An objective value, where a missing one counts as zero. -/
def orZero (x : Option α) : α :=
  match x with
  | some v => if v ≤ 0 ∧ 0 ≤ v then 0 else v
  | none => 0

/-- Compares a result with a reference solution. A reference that says infeasible where the
tableau method reached a feasible basis and then an unbounded ray is left unconfirmed. -/
def SolveResult.compare (r : SolveResult α) (reference : ReferenceSolution α) (tol : α) :
    Comparison α :=
  let comparison : Comparison α := {
    agrees := r.status = reference.status
    confirmed := true
    status := r.status
    referenceStatus := reference.status
    objectiveGap := none }
  if r.status = reference.status then
    if r.status = .optimal then
      let expected := orZero reference.objectiveValue
      let gap := size (orZero r.objectiveValue - expected)
      { comparison with
        agrees := gap ≤ tol * larger 1 (size expected)
        objectiveGap := some gap }
    else comparison
  else if r.status = .unbounded ∧ reference.status = .infeasible ∧ r.feasibleBasis then
    { comparison with agrees := true, confirmed := false }
  else comparison

end SimplexTableau
