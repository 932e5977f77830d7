/-!
# Faults

The ways in which an operation on a tableau can fail, each with its cause and its message.
-/

namespace SimplexTableau

/-- Why an operation cannot be carried out. -/
inductive Fault where
  /-- The given penalty is not a positive finite number. -/
  | penalty
  /-- There is no objective row to go back to. -/
  | noSavedObjective
  /-- The pivot cell holds a number too close to zero. -/
  | zeroPivot
  /-- There is no such row, column or basis entry. -/
  | outOfRange
  /-- A coefficient list does not fit the decision columns. -/
  | coefficientCount
  deriving Repr, DecidableEq

def Fault.message : Fault → String
  | .penalty => "big_m must be a positive finite number."
  | .noSavedObjective => "Tableau carries no saved objective row."
  | .zeroPivot => "Pivot value is numerically zero."
  | .outOfRange => "No such row, column or basis entry."
  | .coefficientCount => "Coefficients do not fit the decision columns."

end SimplexTableau
