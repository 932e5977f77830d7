import SimplexTableau.Decimal.Fixed
import SimplexTableau.Options
import SimplexTableau.Trace

/-!
# Reports in plain text

Trace steps are printed as tables of fixed column widths, with the pivot cell in brackets;
a result is printed with its heading, its message, its steps and its values.
-/

namespace SimplexTableau

/-- The heading of a status in reports. -/
def Status.title : Status → String
  | .optimal => "Optimal solution"
  | .infeasible => "Infeasible problem"
  | .unbounded => "Unbounded problem"
  | .error => "Error"

namespace Report

/-- A cell filled up on the left to a width; nothing is cut off. -/
def rightJustified (width : Nat) (cell : String) : String :=
  String.ofList (List.replicate (width - cell.length) ' ') ++ cell

/-- The text of a number; the pivot cell stands in brackets. -/
def cellText (step : TraceStep Float) (row col : Nat) (value : Float) : String :=
  let text := Decimal.twoPlaces value
  if step.pivotRow = some (row : Int) ∧ step.pivotCol = some (col : Int) then "[" ++ text ++ "]"
  else text

/-- The cells of a row: the basic variable and the numbers. -/
def rowCells (step : TraceStep Float) (number : Nat) (row : TableauRow Float) : List String :=
  row.basicVar :: row.coefficients.zipIdx.map fun (value, col) => cellText step number col value

/-- The cells of the header. -/
def headerCells (step : TraceStep Float) : List String :=
  "Basis" :: step.headers

/-- The cells of all rows. -/
def bodyCells (step : TraceStep Float) : List (List String) :=
  step.rows.zipIdx.map fun (row, number) => rowCells step number row

/-- The length of the cell of a line in a column. -/
def cellLength (col : Nat) (cells : List String) : Except Fault Nat :=
  match cells[col]? with
  | some cell => .ok cell.length
  | none => .error .outOfRange

/-- The width of a column is that of its longest cell. -/
def columnWidth (lines : List (List String)) (col : Nat) : Except Fault Nat := do
  return (← lines.mapM (cellLength col)).foldl max 0

/-- The widths of the columns under the headers of a step. -/
def columnWidths (step : TraceStep Float) : Except Fault (List Nat) :=
  (List.range (headerCells step).length).mapM
    (columnWidth (headerCells step :: bodyCells step))

/-- A line of a table; cells beyond the last width are left out. -/
def lineText (widths : List Nat) (cells : List String) : String :=
  "  ".intercalate (List.zipWith rightJustified widths cells)

/-- The line between the header and the rows. -/
def ruleText (widths : List Nat) : String :=
  "  ".intercalate (widths.map fun w => String.ofList (List.replicate w '-'))

/-- The lines of a step. -/
def stepLines (step : TraceStep Float) : Except Fault (List String) := do
  let widths ← columnWidths step
  return s!"Step {step.index}: {step.description}" :: lineText widths (headerCells step) ::
    ruleText widths :: (bodyCells step).map (lineText widths)

/-- A step as text. -/
def step (s : TraceStep Float) : Except Fault String := do
  return "\n".intercalate (← stepLines s)

/-- The values of an optimal result. -/
def valueLines (r : SolveResult Float) : List String :=
  match r.status, r.objectiveValue with
  | .optimal, some z =>
    "" :: ("Z = " ++ Decimal.twoPlaces z) ::
      r.values.map fun (name, value) => name ++ " = " ++ Decimal.twoPlaces value
  | _, _ => []

/-- The heading for a method; one without a name has none. -/
def methodLines : Option Method → List String
  | none | some (.other "") => []
  | some m => [m.label]

/-- A result as text, headed by its method, with its steps on demand. -/
def result (r : SolveResult Float) (m : Option Method) (withSteps : Bool) :
    Except Fault String := do
  let steps ← if withSteps then r.steps.mapM step else pure []
  return "\n".intercalate <|
    methodLines m ++ [r.status.title] ++ (if r.message.isEmpty then [] else [r.message]) ++
      steps.flatMap (["", ·]) ++ valueLines r

end Report

end SimplexTableau
