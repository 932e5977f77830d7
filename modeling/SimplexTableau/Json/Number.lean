import SimplexTableau.Decimal.Numeral
import SimplexTableau.Json
import SimplexTableau.Text.Quoted

/-!
# Raw values as numbers

A number may be given as it is, as a truth value or as a text. Unlike in forms, a value that
denotes no double is refused.
-/

namespace SimplexTableau

open SimplexTableau.Decimal

/-- Why a raw value is not a number. -/
inductive NumberFault where
  /-- The text is no numeral. -/
  | notNumeral (text : String)
  /-- The value is neither a number nor a text. -/
  | notNumber
  /-- The whole number is beyond the range of doubles. -/
  | tooLarge
  deriving Repr, DecidableEq

def NumberFault.message : NumberFault → String
  | .notNumeral text => "could not convert string to float: " ++ Text.quoted text
  | .notNumber => "A number was expected."
  | .tooLarge => "A whole number is too large."

/-- The double that a raw value denotes. -/
def Json.number : Json → Except NumberFault Float
  | .int n =>
    let x := ofInt n
    if x.isFinite then .ok x else .error .tooLarge
  | .float x => .ok x
  | .bool b => .ok (if b then 1 else 0)
  | .str s =>
    match readFloat? s.toList with
    | some x => .ok x
    | none => .error (.notNumeral s)
  | _ => .error .notNumber

end SimplexTableau
