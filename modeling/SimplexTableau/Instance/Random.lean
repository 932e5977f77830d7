import SimplexTableau.Decimal.Fixed
import SimplexTableau.Problem

/-!
# Random problems

A random problem has a block of packing rows, all of them upper bounds with positive
coefficients, and one covering row that asks the variables to sum to at least one. All drawn
numbers are rounded to two decimals.
-/

namespace SimplexTableau.Instance

/-- A source of numbers between two bounds. -/
abbrev Uniform (σ : Type) := Float → Float → StateM σ Float

variable {σ : Type}

/-- A number between two bounds, rounded to two decimals. -/
def draw (uniform : Uniform σ) (low high : Float) : StateM σ Float := do
  return Decimal.roundToHundredths (← uniform low high)

/-- A row of `n` numbers between two bounds. -/
def drawRow (uniform : Uniform σ) (low high : Float) (n : Nat) : StateM σ (List Float) :=
  (List.range n).mapM fun _ => draw uniform low high

/-- Packing row number `i` over `n` variables. -/
def packingRow (uniform : Uniform σ) (n i : Nat) : StateM σ (Constraint Float) := do
  let coefficients ← drawRow uniform 0.5 5 n
  let rhs ← draw uniform (Float.ofNat n * 2) (Float.ofNat n * 6)
  return ⟨s!"c{i + 1}", coefficients, .le, rhs⟩

/-- The row that asks `n` variables to sum to at least one. -/
def coveringRow (n : Nat) (number : Int) : Constraint Float :=
  ⟨s!"c{number}", List.replicate n 1, .ge, 1⟩

/-- A problem with `vars` variables and `rows` packing rows; a negative number of either
counts as none. -/
def randomProblem (uniform : Uniform σ) (vars rows : Int) : StateM σ (Problem Float) := do
  let n := vars.toNat
  let packing ← (List.range rows.toNat).mapM (packingRow uniform n)
  let objective ← drawRow uniform 1 4 n
  return ⟨.max, objective, packing ++ [coveringRow n (rows + 1)]⟩

end SimplexTableau.Instance
