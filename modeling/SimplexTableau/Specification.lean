import SimplexTableau.Problem

/-!
# Specifications in words

A specification states a linear program in words, as in
`maximize 3x1 + 5x2 subject to x1 <= 4, 2x2 <= 12, x1, x2 >= 0`. This file holds what its parts
are read into and the ways in which reading can fail.
-/

namespace SimplexTableau.Specification

/-- Why a specification cannot be read. -/
inductive SpecFault where
  | empty
  | noDirection
  | noObjective
  | objectiveConstant
  /-- A segment without a comparison. -/
  | noComparison (segment : String)
  /-- A segment with nothing on one side of its comparison. -/
  | incomplete (segment : String)
  | rhsNotNumeric (rhs : String)
  | noVariables (expression : String)
  /-- A coefficient that is not a numeral. -/
  | coefficient (text : String)
  /-- Variable names that no comparison follows. -/
  | dangling (names : List String)
  deriving Repr, DecidableEq

def SpecFault.message : SpecFault → String
  | .empty => "Specification is empty."
  | .noDirection => "Objective must start with 'maximize' or 'minimize'."
  | .noObjective => "Objective expression is missing."
  | .objectiveConstant => "Objective constants are not supported."
  | .noComparison segment => s!"Could not parse constraint segment '{segment}'."
  | .incomplete segment => s!"Incomplete constraint expression '{segment}'."
  | .rhsNotNumeric rhs => s!"Right-hand side '{rhs}' is not numeric."
  | .noVariables expression => s!"No variables found in expression '{expression}'."
  | .coefficient text => s!"could not convert string to float: '{text}'"
  | .dangling names => "Dangling variable list '" ++ ", ".intercalate names ++ "'."

variable {α : Type}

/-- Coefficients by variable, in the order of first appearance, and a constant. -/
structure LinearForm (α : Type) where
  terms : List (String × α)
  constant : α
  deriving Repr, DecidableEq

/-- A constraint in named variables. -/
structure Statement (α : Type) where
  terms : List (String × α)
  relation : Relation
  rhs : α
  deriving Repr, DecidableEq

/-- The names that terms mention, added to those known before. -/
def addNames (known : List String) (terms : List (String × α)) : List String :=
  terms.foldl (fun names (name, _) => if names.contains name then names else names ++ [name]) known

section Coefficients

variable [Scalar α]

/-- The coefficient of a variable; zero if it is not mentioned. -/
def coefficientOf (terms : List (String × α)) (name : String) : α :=
  (terms.lookup name).getD 0

/-- Adds to the coefficient of a variable; a new one starts from zero and comes last. -/
def addTerm (name : String) (value : α) : List (String × α) → List (String × α)
  | [] => [(name, 0 + value)]
  | (n, v) :: rest => if n = name then (n, v + value) :: rest else (n, v) :: addTerm name value rest

/-- A statement that a variable with a positive coefficient is not negative. It says nothing
new, since every variable is non-negative already. -/
def Statement.isNonNegativity (s : Statement α) : Bool :=
  s.relation = .ge && !decide (1e-12 < size s.rhs) &&
    match s.terms with
    | [(_, c)] => 0 < c
    | _ => false

/-- The problem that statements make up over the named variables. -/
def assemble (direction : Direction) (objective : List (String × α)) (names : List String)
    (statements : List (Statement α)) : Problem α where
  direction := direction
  objective := names.map (coefficientOf objective)
  constraints := (statements.zipIdx 1).map fun (s, i) =>
    ⟨s!"c{i}", names.map (coefficientOf s.terms), s.relation, s.rhs⟩

end Coefficients

end SimplexTableau.Specification
