import SimplexTableau.Fault
import SimplexTableau.Problem

/-!
# Methods and options

The variants of the tableau method and the numbers that steer them: the cap on pivots, the
tolerance of the selection and elimination tests, the tolerance for values that should be
zero, and the penalty of the Big-M method.
-/

namespace SimplexTableau

/-- A variant of the tableau method. One by any other name runs as the standard simplex. -/
inductive Method where
  | simplex
  | bigM
  | twoPhase
  | other (name : String)
  deriving Repr, DecidableEq

def Method.ofName (name : String) : Method :=
  if name = "simplex" then .simplex
  else if name = "big_m" then .bigM
  else if name = "two_phase" then .twoPhase
  else .other name

def Method.name : Method → String
  | .simplex => "simplex"
  | .bigM => "big_m"
  | .twoPhase => "two_phase"
  | .other name => name

/-- The heading of a method in reports. -/
def Method.label : Method → String
  | .simplex => "Standard Simplex"
  | .bigM => "Big-M Method"
  | .twoPhase => "Two-Phase Method"
  | .other name => name

/-- The numbers that steer a solution. Without `bigM` the penalty is derived from the data. -/
structure SolveOptions (α : Type) [Scalar α] where
  maxIters : Nat := 50
  tol : α := 1e-9
  feasibilityTol : α := 1e-5
  bigM : Option α := none
  bigMScale : α := 1e4
  bigMFloor : α := 1e5

/-- At least one pivot is allowed, and tolerances and penalty factors are positive. -/
structure SolveOptions.Valid {α : Type} [Scalar α] (o : SolveOptions α) : Prop where
  maxIters : 1 ≤ o.maxIters
  tol : 0 < o.tol
  feasibilityTol : 0 < o.feasibilityTol
  bigMScale : 0 < o.bigMScale
  bigMFloor : 0 < o.bigMFloor

section Penalty

variable {α : Type} [Scalar α]

/-- The absolute values of all numbers of a problem. -/
def Problem.sizes (p : Problem α) : List α :=
  p.objective.map size ++
    p.constraints.flatMap fun c => c.coefficients.map size ++ [size c.rhs]

/-- The largest absolute value in a problem, or one if there is none but zero. -/
def Problem.scale (p : Problem α) : α :=
  match p.sizes with
  | [] => 1
  | first :: rest =>
    let largest := rest.foldl larger first
    if largest ≤ 0 then 1 else largest

/-- The penalty on artificial variables: the given one if it is positive and finite, else
large against all numbers of the problem. -/
def SolveOptions.penalty (o : SolveOptions α) (p : Problem α) : Except Fault α :=
  match o.bigM with
  | some m => if Scalar.isFinite m = false ∨ m ≤ 0 then .error .penalty else .ok m
  | none => .ok (larger o.bigMFloor (o.bigMScale * p.scale))

end Penalty

end SimplexTableau
