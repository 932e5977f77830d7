import SimplexTableau.Decimal.Shortest
import SimplexTableau.Instance.Seeded
import SimplexTableau.Solve.Result

/-!
# Benchmark

Example problems and seeded random problems are solved by all three methods. Each run gives a
line with its status, objective value, and the numbers of pivots and steps.
-/

namespace SimplexTableau.Benchmark

/-- A textbook maximisation with two variables. -/
def classicMax : Problem Float where
  direction := .max
  objective := [3, 5]
  constraints := [
    ⟨"c1", [1, 0], .le, 4⟩,
    ⟨"c2", [0, 2], .le, 12⟩,
    ⟨"c3", [3, 2], .le, 18⟩]

/-- The cheapest mixture of two foods. -/
def dietMin : Problem Float where
  direction := .min
  objective := [3, 2]
  constraints := [
    ⟨"c1", [1, 2], .ge, 8⟩,
    ⟨"c2", [3, 1], .ge, 6⟩]

/-- A maximisation with constraints of every relation. -/
def mixedRelations : Problem Float where
  direction := .max
  objective := [2, 3, 1]
  constraints := [
    ⟨"c1", [1, 1, 1], .le, 40⟩,
    ⟨"c2", [2, 1, -1], .ge, 10⟩,
    ⟨"c3", [0, -1, 1], .ge, 10⟩,
    ⟨"c4", [1, 0, 1], .eq, 25⟩]

/-- The problems by name. Random problems whose shape is wrong would be left out. -/
def cases : List (String × Problem Float) :=
  [("examples/classic_max.json", classicMax), ("examples/diet_min.json", dietMin),
    ("examples/mixed_relations.json", mixedRelations)] ++
  (List.range 3).filterMap fun (seed : Nat) =>
    match Instance.seededProblem 3 3 seed with
    | .ok p => some (s!"random-{seed}", p)
    | .error _ => none

/-- The methods that are compared. -/
def methods : List Method :=
  [.simplex, .bigM, .twoPhase]

/-- The heading of the lines, without the time. -/
def heading : String :=
  "name,method,status,objective,iterations,steps"

/-- The line for a result, without the time. -/
def line (name : String) (m : Method) (r : SolveResult Float) : String :=
  let objective := (r.objectiveValue.map Decimal.shortestText).getD "None"
  ",".intercalate [name, m.name, r.status.name, objective, toString r.iterations,
    toString r.steps.length]

/-- All runs in order. -/
def runs : List (String × Problem Float × Method) :=
  cases.flatMap fun (name, p) => methods.map fun m => (name, p, m)

/-- All lines without times. -/
def lines : List String :=
  heading :: runs.map fun (name, p, m) => line name m (p.solve m {})

end SimplexTableau.Benchmark
