import SimplexTableau.Diagnosis
import SimplexTableau.Record.Reading
import SimplexTableau.Solve.Journal

/-!
# Records as JSON

Every record is written with all its fields, in the order in which they are declared.
-/

namespace SimplexTableau.Record

open Json (ofOption ofList)

def ofFloats (xs : List Float) : Json :=
  ofList .float xs

def ofStrings (xs : List String) : Json :=
  ofList .str xs

def ofTable (values : List (String × Float)) : Json :=
  .obj (values.map fun (key, x) => (key, .float x))

def ofConstraint (c : Constraint Float) : Json :=
  .obj [("id", .str c.id), ("coefficients", ofFloats c.coefficients),
    ("relation", .str c.relation.text), ("rhs", .float c.rhs)]

def ofProblem (p : Problem Float) : Json :=
  .obj [("direction", .str p.direction.name), ("objective", ofFloats p.objective),
    ("constraints", ofList ofConstraint p.constraints)]

def ofSolveOptions (o : SolveOptions Float) : Json :=
  .obj [("max_iters", .int o.maxIters), ("tol", .float o.tol),
    ("feasibility_tol", .float o.feasibilityTol), ("big_m", ofOption .float o.bigM),
    ("big_m_scale", .float o.bigMScale), ("big_m_floor", .float o.bigMFloor)]

def ofHeading (h : Heading) : Json :=
  .obj [("name", .str h.name), ("role", .str h.role.name)]

def ofTableauRow (r : TableauRow Float) : Json :=
  .obj [("basic_var", .str r.basicVar), ("coefficients", ofFloats r.coefficients),
    ("rhs", .float r.rhs)]

def ofTraceStep (s : TraceStep Float) : Json :=
  .obj [("step_index", .int s.index), ("kind", .str s.kind.name),
    ("description", .str s.description), ("headers", ofStrings s.headers),
    ("rows", ofList ofTableauRow s.rows), ("basic_vars", ofStrings s.basicVars),
    ("pivot_row", ofOption .int s.pivotRow), ("pivot_col", ofOption .int s.pivotCol),
    ("entering_var", ofOption .str s.enteringVar), ("leaving_var", ofOption .str s.leavingVar),
    ("phase", .int s.phase), ("is_phase1", .bool s.isPhaseOne)]

/-- The fields of a result other than its steps. -/
def resultFields (r : SolveResult Float) : List (String × Json) :=
  [("values", ofTable r.values), ("objective_value", ofOption .float r.objectiveValue),
    ("iterations", .int r.iterations), ("message", .str r.message),
    ("feasible_basis", .bool r.feasibleBasis)]

def ofSolveResult (r : SolveResult Float) : Json :=
  .obj (("status", .str r.status.name) :: ("steps", ofList ofTraceStep r.steps) :: resultFields r)

/-- A result without its steps. -/
def ofSummary (r : SolveResult Float) : Json :=
  .obj (("status", .str r.status.name) :: resultFields r)

def ofFormLimits (l : FormLimits) : Json :=
  .obj [("min_vars", .int l.minVars), ("max_vars", .int l.maxVars),
    ("min_constraints", .int l.minConstraints), ("max_constraints", .int l.maxConstraints),
    ("initial_vars", .int l.initialVars), ("initial_constraints", .int l.initialConstraints)]

def ofReferenceSolution (r : ReferenceSolution Float) : Json :=
  .obj [("status", .str r.status.name), ("objective_value", ofOption .float r.objectiveValue),
    ("values", ofOption ofTable r.values), ("message", .str r.message)]

/-- The fields of a comparison. -/
def comparisonFields (c : Comparison Float) : List (String × Json) :=
  [("agrees", .bool c.agrees), ("confirmed", .bool c.confirmed), ("status", .str c.status.name),
    ("reference_status", .str c.referenceStatus.name),
    ("objective_gap", ofOption .float c.objectiveGap)]

def ofDiagnosis (d : Diagnosis) : Json :=
  .obj [("status", .str d.status.name), ("message", .str d.message),
    ("conflicting_constraints", ofStrings d.conflicts), ("suggestions", ofStrings d.suggestions)]

def ofEntry (e : Entry) : Json :=
  .arr [.str e.level.name, .str e.source, .str e.message]

end SimplexTableau.Record
