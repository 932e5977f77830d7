import SimplexTableau.Row

/-!
# Linear programs

A problem maximises or minimises a linear objective over non-negative variables subject to
linear constraints. This file holds the problem data, its shape condition, and what it means
for a point to satisfy it.
-/

namespace SimplexTableau

/-- The sense of optimisation. A direction by any other name is maximised. -/
inductive Direction where
  | max
  | min
  | other (name : String)
  deriving Repr, DecidableEq

def Direction.ofName (name : String) : Direction :=
  if name = "max" then .max else if name = "min" then .min else .other name

def Direction.name : Direction → String
  | .max => "max"
  | .min => "min"
  | .other name => name

/-- How the left-hand side of a constraint compares with its right-hand side. -/
inductive Relation where
  | le
  | ge
  | eq
  deriving Repr, DecidableEq

def Relation.text : Relation → String
  | .le => "<="
  | .ge => ">="
  | .eq => "="

/-- The relation between the negated sides. -/
def Relation.flipped : Relation → Relation
  | .le => .ge
  | .ge => .le
  | .eq => .eq

@[simp] theorem Relation.flipped_flipped (r : Relation) : r.flipped.flipped = r := by
  cases r <;> rfl

/-- A linear constraint with a name. -/
structure Constraint (α : Type) where
  id : String
  coefficients : List α
  relation : Relation
  rhs : α
  deriving Repr, DecidableEq

/-- A linear program; its variables are non-negative. -/
structure Problem (α : Type) where
  direction : Direction
  objective : List α
  constraints : List (Constraint α)
  deriving Repr, DecidableEq

/-- The ways in which the data of a problem can fail to fit together. -/
inductive ShapeFault where
  | noVariables
  | coefficientCount (id : String) (found expected : Nat)
  deriving Repr, DecidableEq

def ShapeFault.message : ShapeFault → String
  | .noVariables => "Objective needs at least one decision variable."
  | .coefficientCount id found expected =>
    s!"Constraint '{id}' has {found} coefficients, expected {expected}."

namespace Problem

variable {α : Type}

/-- The number of decision variables. -/
def numVars (p : Problem α) : Nat :=
  p.objective.length

/-- The first thing wrong with the shape of a problem. -/
def shapeFault? (p : Problem α) : Option ShapeFault :=
  if p.numVars = 0 then some .noVariables
  else
    (p.constraints.find? fun c => c.coefficients.length != p.numVars).map fun c =>
      .coefficientCount c.id c.coefficients.length p.numVars

/-- A problem with a proper direction, at least one variable and one coefficient for each
variable in every constraint. -/
structure Valid (p : Problem α) : Prop where
  direction : p.direction = .max ∨ p.direction = .min
  objective : p.objective ≠ []
  coefficients : ∀ c ∈ p.constraints, c.coefficients.length = p.numVars

theorem shapeFault?_eq_none_iff (p : Problem α) :
    p.shapeFault? = none ↔
      p.objective ≠ [] ∧ ∀ c ∈ p.constraints, c.coefficients.length = p.numVars := by
  by_cases h : p.objective = [] <;> simp [shapeFault?, numVars, h]

end Problem

section Points

variable {α : Type} [Scalar α]

/-- Whether a point satisfies a constraint. -/
def Constraint.Holds (c : Constraint α) (x : List α) : Prop :=
  match c.relation with
  | .le => dot c.coefficients x ≤ c.rhs
  | .ge => c.rhs ≤ dot c.coefficients x
  | .eq => dot c.coefficients x = c.rhs

/-- A point with one non-negative entry for each variable that satisfies all constraints. -/
structure Problem.Feasible (p : Problem α) (x : List α) : Prop where
  length : x.length = p.numVars
  nonneg : ∀ v ∈ x, 0 ≤ v
  holds : ∀ c ∈ p.constraints, c.Holds x

/-- The same constraint with both sides negated. -/
def Constraint.negated (c : Constraint α) : Constraint α where
  id := c.id
  coefficients := c.coefficients.map (-·)
  relation := c.relation.flipped
  rhs := -c.rhs

/-- Writes a constraint with a right-hand side that is not negative. -/
def Constraint.standardised (c : Constraint α) : Constraint α :=
  if c.rhs < 0 then c.negated else c

end Points

end SimplexTableau
