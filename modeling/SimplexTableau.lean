import SimplexTableau.Json.Reader
import SimplexTableau.Main
import SimplexTableau.Service
import SimplexTableau.Instance.Destination
import SimplexTableau.Json.Number
import SimplexTableau.Tableau.Workbench
import SimplexTableau.Proofs.Exact
import SimplexTableau.Proofs.Ordered
import SimplexTableau.Proofs.Doubles
import SimplexTableau.Proofs.Entries
import SimplexTableau.Proofs.Selection
import SimplexTableau.Proofs.Pivots
import SimplexTableau.Proofs.RowSpace
import SimplexTableau.Proofs.Boundary
import SimplexTableau.Proofs.Start
import SimplexTableau.Proofs.Prepared
import SimplexTableau.Proofs.Courses
import SimplexTableau.Proofs.Common
import SimplexTableau.Proofs.Optimality
import SimplexTableau.Proofs.Canonical
import SimplexTableau.Proofs.BasicSolution
import SimplexTableau.Proofs.Feasibility
import SimplexTableau.Proofs.CleanBoundary
import SimplexTableau.Proofs.CleanSolve
import SimplexTableau.Proofs.TwoPhase
import SimplexTableau.Proofs.Determined
import SimplexTableau.Proofs.Revisits
import SimplexTableau.Proofs.Convergence
import SimplexTableau.Proofs.Steps
import SimplexTableau.Proofs.RecordedChoices
import SimplexTableau.Proofs.Ascent
import SimplexTableau.Proofs.RecordedForm
import SimplexTableau.Proofs.Operations
import SimplexTableau.Proofs.Unbounded
import SimplexTableau.Proofs.Totality
import SimplexTableau.Proofs.FirstPhase
import SimplexTableau.Proofs.Meaning
import SimplexTableau.Proofs.Penalty
import SimplexTableau.Proofs.Replay
import SimplexTableau.Proofs.Frames
import SimplexTableau.Proofs.ResultShape
import SimplexTableau.Proofs.BasisSet
import SimplexTableau.Proofs.ReportedObjective
import SimplexTableau.Proofs.FrozenRows
import SimplexTableau.Proofs.Mirror
import SimplexTableau.Proofs.Truncation
import SimplexTableau.Proofs.BoundaryPoint
import SimplexTableau.Proofs.Negation
import SimplexTableau.Proofs.Refusal
import SimplexTableau.Proofs.Conflicts
import SimplexTableau.Proofs.SpecRoundTrip
import SimplexTableau.Proofs.ConstantBounds
import SimplexTableau.Proofs.Segments
import SimplexTableau.Proofs.ReferenceProgram
import SimplexTableau.Proofs.InitialLayout
import SimplexTableau.Proofs.DroppedBounds
import SimplexTableau.Proofs.RandomProblems
import SimplexTableau.Proofs.ListedBounds
import SimplexTableau.Proofs.StepTables
import SimplexTableau.Proofs.Amounts
import SimplexTableau.Proofs.Forms
