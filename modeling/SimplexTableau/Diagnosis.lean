import SimplexTableau.Solve.Result

/-!
# Diagnosis of infeasibility

A constraint is critical if the problem without it has a feasible basis. The method decides
whether the problem is infeasible at all; the smaller problems are always solved with two
phases, since the penalty method calls one that is also unbounded merely unbounded.
-/

namespace SimplexTableau

/-- What is known about an infeasible problem. -/
structure Diagnosis where
  status : Status
  message : String
  conflicts : List String := []
  suggestions : List String := []
  deriving Repr, DecidableEq

variable {α : Type} [Scalar α]

/-- The problem without its constraint number `i`. -/
def Problem.without (p : Problem α) (i : Nat) : Problem α :=
  { p with constraints := p.constraints.eraseIdx i }

/-- The names of the constraints without which a feasible basis is found. -/
def Problem.criticalConstraints (p : Problem α) : List String :=
  (p.constraints.zipIdx.filter fun (_, i) =>
    ((p.without i).solve .twoPhase {}).feasibleBasis).map fun (c, _) => c.id

/-- What is said of a method that cannot detect infeasibility. -/
def unsuitableMethod : String :=
  "Infeasibility analysis needs the big_m or two_phase method."

/-- Examines a problem, unless the standard simplex is asked to, which cannot tell. -/
def Problem.diagnose (p : Problem α) (m : Method) : Except String Diagnosis :=
  if m = .simplex then .error unsuitableMethod
  else
    let solution := p.solve m {}
    if solution.status ≠ .infeasible then
      .ok {
        status := solution.status
        message :=
          if solution.message.isEmpty then "Problem is not infeasible." else solution.message }
    else
      let conflicts := p.criticalConstraints
      .ok {
        status := .infeasible
        message := "Detected infeasibility; listed constraints critical to infeasibility."
        conflicts
        suggestions := [
          if conflicts.isEmpty then
            "No single constraint explains the conflict; check groups of constraints together."
          else "Relax or inspect the conflicting constraints above."] }

end SimplexTableau
