import SimplexTableau.Solve.Course

/-!
# Verdict and result

The verdict on a problem is read off the course of its solution: optimal, infeasible because
artificial variables cannot reach zero, or unbounded because a run found no pivot row or hit
its cap. A solution that meets a fault has the status `error` and nothing else.
-/

namespace SimplexTableau

variable {α : Type} [Scalar α]

/-- What a course says about its problem. Runs that end without an optimum carry the phase
they belong to, if the method has phases. -/
inductive Verdict (α : Type) where
  | optimal
  | positivePhaseOne (optimum : α)
  | positiveArtificials (names : List String)
  | unbounded (phase : Option Nat)
  | limit (phase : Option Nat)
  deriving Repr, DecidableEq

namespace Verdict

def status : Verdict α → Status
  | .optimal => .optimal
  | .positivePhaseOne _ | .positiveArtificials _ => .infeasible
  | .unbounded _ | .limit _ => .unbounded

/-- The phase in front of a message. -/
def phaseText : Option Nat → String
  | some phase => s!"Phase {phase}: "
  | none => ""

def message : Verdict α → String
  | .optimal => ""
  | .positivePhaseOne optimum =>
    "Infeasible: phase 1 optimum is " ++ Scalar.message (size optimum) ++
      ", artificial variables cannot reach zero."
  | .positiveArtificials names =>
    "Infeasible: artificial variable(s) " ++ ", ".intercalate names ++
      " remain positive in the basis."
  | .unbounded phase => phaseText phase ++ "objective can be improved without limit (unbounded)."
  | .limit phase =>
    phaseText phase ++ "iteration limit reached before convergence; treated as unbounded."

/-- The verdict on a run that did not end at an optimum. -/
def ofEnding (phase : Option Nat) : Move → Verdict α
  | .limit => .limit phase
  | _ => .unbounded phase

end Verdict

namespace Course

/-- The verdict of a method on its course. -/
def verdict (c : Course α) (m : Method) (o : SolveOptions α) : Verdict α :=
  match c.second with
  | some phase =>
    if phase.run.ending = .optimal then .optimal else .ofEnding (some 2) phase.run.ending
  | none =>
    let phased := c.start.hasFirstPhase m
    if c.first.ending ≠ .optimal then .ofEnding (if phased then some 1 else none) c.first.ending
    else if phased then .positivePhaseOne (rhsOf c.first.final.objective)
    else
      let residual := c.final.basicArtificials o.feasibilityTol
      if m = .bigM ∧ residual ≠ [] then .positiveArtificials residual else .optimal

/-- Whether a basis with every artificial variable at zero was reached. -/
def feasibleBasis (c : Course α) (m : Method) (o : SolveOptions α) : Bool :=
  match c.verdict m o with
  | .optimal => (c.final.basicArtificials o.feasibilityTol).isEmpty
  | .unbounded _ | .limit _ => c.second.isSome || c.start.artificial.isEmpty
  | _ => false

/-- The objective value in the direction of the problem. -/
def objectiveValue (c : Course α) (d : Direction) : α :=
  let z := rhsOf c.final.objective
  clean (if d = .min then -z else z)

/-- The result of a course. -/
def result (c : Course α) (d : Direction) (m : Method) (o : SolveOptions α) : SolveResult α :=
  let verdict := c.verdict m o
  let result : SolveResult α := {
    status := verdict.status
    steps := c.steps
    iterations := c.iterations
    message := verdict.message
    feasibleBasis := c.feasibleBasis m o }
  match verdict with
  | .optimal =>
    { result with values := c.final.values, objectiveValue := some (c.objectiveValue d) }
  | _ => result

end Course

/-- The result of a solution that met a fault. -/
def SolveResult.failed : SolveResult α where
  status := .error
  message := "Internal calculation error."

/-- Solves a problem with a variant of the tableau method. -/
def Problem.solve (p : Problem α) (m : Method) (o : SolveOptions α) : SolveResult α :=
  match p.course m o with
  | .ok c => c.result p.direction m o
  | .error _ => .failed

end SimplexTableau
