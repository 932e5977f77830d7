import SimplexTableau.Instance.Random
import SimplexTableau.Instance.Twister

/-!
# Problems from seeds

The same seed always gives the same problem.
-/

namespace SimplexTableau.Instance

/-- The random problem of a seed, unless its shape is wrong. -/
def seededProblem (vars rows seed : Int) : Except ShapeFault (Problem Float) :=
  let problem := (randomProblem Twister.uniform vars rows (Twister.ofSeed seed)).1
  match problem.shapeFault? with
  | some fault => .error fault
  | none => .ok problem

end SimplexTableau.Instance
