import SimplexTableau.Record.Writing
import SimplexTableau.Report
import SimplexTableau.Specification.Reading

/-!
# The tools of the server

The server offers five tools: solving a problem, reading a specification, diagnosing
infeasibility, checking a result against a reference solver, and printing a solution. Their
answers are JSON values or texts.
-/

namespace SimplexTableau.Service

/-- Solves a problem and answers with the full trace. -/
def solve (p : Problem Float) (m : Method) (o : SolveOptions Float) : Json :=
  Record.ofSolveResult (p.solve m o)

/-- The text of a raw specification. A value that counts as nothing is an empty one, and any
other that is not a text is refused. -/
def specificationText? : Json → Option String
  | .str s => some s
  | value => if value.isEmpty then some "" else none

/-- Reads a specification, and answers with the reason if that is not possible. -/
def parse (spec : String) : Json :=
  match Specification.read spec with
  | .ok p => Record.ofProblem p
  | .error fault =>
    .obj [("error", .str ("Failed to parse problem: " ++ fault.message)), ("problem", .null)]

/-- Diagnoses infeasibility, and answers with the reason if the method cannot do so. -/
def diagnose (p : Problem Float) (m : Method) : Json :=
  match p.diagnose m with
  | .ok d => Record.ofDiagnosis d
  | .error reason => .obj [("error", .str reason)]

/-- The tolerance for objective values in a check. -/
def checkTolerance : Float := 1e-6

/-- Checks the result of a method against the answer of the reference solver, unless that is a
failure without a message. -/
def verify (p : Problem Float) (m : Method) (answer : ReferenceAnswer Float) : Option Json := do
  let result := p.solve m {}
  let reference ← p.referenceSolution answer
  return .obj (Record.comparisonFields (result.compare reference checkTolerance) ++
    [("result", Record.ofSummary result), ("reference", Record.ofReferenceSolution reference)])

/-- Solves a problem and prints the result. -/
def render (p : Problem Float) (m : Method) (withSteps : Bool) : Except Fault String :=
  Report.result (p.solve m {}) (some m) withSteps

/-- Solves a problem given in raw parts, each of which must be countable. Parts that make up no
problem give a failed result. -/
def solveParts (m : Method) (direction objective constraints : Json) (o : SolveOptions Float) :
    Option (SolveResult Float) := do
  let objective ← objective.members?
  let constraints ← constraints.members?
  let raw := Json.obj
    [("direction", direction), ("objective", .arr objective), ("constraints", .arr constraints)]
  match Record.problem raw with
  | .ok p => return p.solve m o
  | .issues _ => return .failed

end SimplexTableau.Service
