import SimplexTableau.Decimal.Numeral
import SimplexTableau.Json.Display
import SimplexTableau.Problem

/-!
# Problems from form fields

A form delivers raw values: numbers as text, missing fields, rows of uneven length. Blank or
unreadable numbers count as zero, short rows are filled up with zeros, and everything else that
does not fit is refused with the first thing that is wrong.
-/

namespace SimplexTableau

open SimplexTableau.Text SimplexTableau.Decimal

/-- The sizes that a form may have. -/
structure FormLimits where
  minVars : Int := 1
  maxVars : Int := 10
  minConstraints : Int := 1
  maxConstraints : Int := 10
  initialVars : Int := 2
  initialConstraints : Int := 2
  deriving Repr, DecidableEq

/-- Why a form is refused. -/
inductive FormFault where
  | variableCount (low high : Int) (found : String)
  | constraintCount (low high : Int) (found : String)
  | direction (text : String)
  | coefficientCount (row : Nat)
  | relation (row : Nat) (text : String)
  | shape (fault : ShapeFault)
  /-- A value stands where a list or a count is expected and is neither. -/
  | notCountable
  /-- A constraint is not an object. -/
  | notAnObject
  /-- A whole number is beyond the range of doubles. -/
  | tooLarge
  deriving Repr, DecidableEq

def FormFault.message : FormFault → String
  | .variableCount low high found =>
    s!"Number of variables must be between {low} and {high}, got {found}."
  | .constraintCount low high found =>
    s!"Number of constraints must be between {low} and {high}, got {found}."
  | .direction text => s!"Unknown optimisation direction '{text}'."
  | .coefficientCount row => s!"Constraint {row} has more coefficients than decision variables."
  | .relation row text => s!"Constraint {row} has unknown relation '{text}'."
  | .shape fault => fault.message
  | .notCountable => "A list or a count was expected."
  | .notAnObject => "An object was expected."
  | .tooLarge => "A whole number is too large."

namespace Form

/-- Finite numbers count as they are, and all others as zero. -/
def finiteOrZero (x : Float) : Float :=
  if x.isFinite then x else 0

/-- The number in a form field: anything blank or unreadable counts as zero. Only a whole number
beyond the range of doubles is refused. -/
def number : Json → Except FormFault Float
  | .int n =>
    let x := ofInt n
    if x.isFinite then .ok x else .error .tooLarge
  | .float x => .ok (finiteOrZero x)
  | .str s => .ok (((readFloat? (trim s.toList)).map finiteOrZero).getD 0)
  | _ => .ok 0

/-- Whether the exact value of a double lies between two bounds; that of no infinity does, and an
undefined double has none. -/
def floatWithin (low high : Int) (x : Float) : Bool :=
  match Binary.ofFloat x with
  | .finite negative mantissa exponent =>
    let (num, den) := binaryQuotient mantissa exponent
    let signed : Int := if negative then -num else num
    decide (low * den ≤ signed ∧ signed ≤ high * den)
  | _ => false

/-- Whether a raw size lies between two bounds. Only a number or a truth value can be compared
with them. -/
def within? (low high : Int) : Json → Option Bool
  | .int n => some (decide (low ≤ n ∧ n ≤ high))
  | .bool b => some (decide (low ≤ b.toInt ∧ b.toInt ≤ high))
  | .float x => some (floatWithin low high x)
  | _ => none

/-- The count that a raw size stands for; one below zero counts nothing. -/
def count? : Json → Option Nat
  | .int n => some n.toNat
  | .bool b => some b.toNat
  | _ => none

/-- Checks the number of variables, then the number of constraints. -/
def checkSize (limits : FormLimits) (vars constraints : Json) : Except FormFault Unit := do
  let some variablesFit := within? limits.minVars limits.maxVars vars | throw .notCountable
  if !variablesFit then throw (.variableCount limits.minVars limits.maxVars vars.display)
  let some constraintsFit := within? limits.minConstraints limits.maxConstraints constraints
    | throw .notCountable
  if !constraintsFit then
    throw (.constraintCount limits.minConstraints limits.maxConstraints constraints.display)

/-- Hands out a problem whose parts fit together. -/
def checkShape (p : Problem Float) : Except FormFault (Problem Float) :=
  match p.shapeFault? with
  | some fault => .error (.shape fault)
  | none => .ok p

/-- The problem of the requested size with all numbers zero and all relations `≤`. The sizes are
given raw, and those within the limits must still be counts. -/
def blank (vars constraints : Json) (limits : FormLimits) : Except FormFault (Problem Float) := do
  checkSize limits vars constraints
  let some n := count? vars | throw .notCountable
  let some m := count? constraints | throw .notCountable
  let zeros : List Float := List.replicate n 0
  checkShape {
    direction := .max
    objective := zeros
    constraints := (List.range m).map fun i => ⟨s!"c-{i}", zeros, .le, 0⟩ }

/-- A text without blanks at its ends. -/
def trimmed (s : String) : String :=
  String.ofList (trim s.toList)

/-- The direction that a field names, in any letter case. -/
def direction? (field : Json) : Option Direction :=
  let word := String.ofList ((trim field.display.toList).map Char.toLower)
  if ["max", "maximize", "maximise"].contains word then some .max
  else if ["min", "minimize", "minimise"].contains word then some .min
  else none

/-- The relation that a text names, in any of its six spellings. -/
def relation? (text : String) : Option Relation :=
  [("<=", Relation.le), ("=<", .le), (">=", .ge), ("=>", .ge), ("=", .eq), ("==", .eq)].lookup text

/-- The constraint in row number `i` of a form with `n` variables. -/
def row (n i : Nat) (raw : Json) : Except FormFault (Constraint Float) := do
  let .obj _ := raw | throw .notAnObject
  let some fields := ((raw.field? "coefficients").getD (.arr [])).members? | throw .notCountable
  let coefficients ← fields.mapM number
  if n < coefficients.length then throw (.coefficientCount (i + 1))
  let text := ((raw.field? "relation").getD (.str "<=")).display
  let some relation := relation? (trimmed text)
    | throw (.relation (i + 1) text)
  let id := (raw.field? "id").getD .null
  return {
    id := if id.isEmpty then s!"c-{i}" else id.display
    coefficients := coefficients ++ List.replicate (n - coefficients.length) 0
    relation
    rhs := ← number ((raw.field? "rhs").getD (.int 0)) }

/-- The problem that a form describes. Sizes are checked first, then the direction, then the
rows in order, and the objective last. -/
def problem (direction objective constraints : Json) (limits : FormLimits) :
    Except FormFault (Problem Float) := do
  let some objectiveFields := objective.members? | throw .notCountable
  let some rows := constraints.members? | throw .notCountable
  checkSize limits (.int objectiveFields.length) (.int rows.length)
  let some sense := direction? direction | throw (.direction direction.display)
  let n := objectiveFields.length
  let constraints ← rows.zipIdx.mapM fun (raw, i) => row n i raw
  checkShape { direction := sense, objective := ← objectiveFields.mapM number, constraints }

end Form

end SimplexTableau
