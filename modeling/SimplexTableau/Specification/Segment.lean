import SimplexTableau.Specification.Expression
import SimplexTableau.Text.Phrase

/-!
# Constraint segments

Constraints are separated by commas, semicolons and the word `and`. Bare names belong to the
next segment, so that `x1, x2 >= 3` bounds both variables; they are put in front of it, set
off by bars.
-/

namespace SimplexTableau.Specification

open SimplexTableau.Text SimplexTableau.Decimal

/-- The width of a separator at the front of a text; `and` must be a word of its own. -/
def separatorWidth (before : Option Char) (rest : List Char) : Nat :=
  match rest with
  | ',' :: _ | ';' :: _ => 1
  | _ =>
    match afterPhrase? ['a', 'n', 'd'] rest with
    | some after =>
      if before.any isWord || (after.head?).any isWord then 0 else 3
    | none => 0

/-- Joins bare names to the segment that follows them, which some segment must do. -/
def gather : (pending : List (List Char)) → List (List Char) → Except SpecFault (List (List Char))
  | [], [] => .ok []
  | pending, [] => .error (.dangling (pending.map String.ofList))
  | pending, token :: rest =>
    if token.isEmpty then gather pending rest
    else if isName token then gather (pending ++ [token]) rest
    else do
      let segments ← gather [] rest
      return " | ".toList.intercalate (pending ++ [token]) :: segments

/-- The segments of the constraint part of a specification. -/
def segments (text : List Char) : Except SpecFault (List (List Char)) :=
  gather [] ((cut separatorWidth none 0 text).map trim)

/-- A relation sign at the front of a text, in any of its six spellings. -/
def relationAt? : List Char → Option (Relation × List Char)
  | '<' :: '=' :: cs => some (.le, cs)
  | '>' :: '=' :: cs => some (.ge, cs)
  | '=' :: '=' :: cs => some (.eq, cs)
  | '=' :: '<' :: cs => some (.le, cs)
  | '=' :: '>' :: cs => some (.ge, cs)
  | '=' :: cs => some (.eq, cs)
  | _ => none

/-- The text before the first relation sign, the relation, and the text after it. -/
def splitRelation? : List Char → Option (List Char × Relation × List Char)
  | [] => none
  | c :: cs =>
    match relationAt? (c :: cs) with
    | some (r, after) => some ([], r, after)
    | none => (splitRelation? cs).map fun (before, r, after) => (c :: before, r, after)

/-- Cuts a text at its bars. -/
def splitBars : List Char → List (List Char) :=
  cut (fun _ rest => if rest.head? = some '|' then 1 else 0) none 0

/-- The left-hand sides of a segment: each of several names alone, or one expression. -/
def leftSides (lhs : List Char) : Except SpecFault (List (LinearForm Float)) := do
  let names := (splitBars lhs).map trim
  if 1 < names.length && names.all isName then
    return names.map fun name => ⟨[(String.ofList name, 1)], 0⟩
  else return [← expression? (lhs.map fun c => if c = '|' then ',' else c)]

/-- The statements of a segment, with the constants of the left-hand sides moved over. -/
def statements (segment : List Char) : Except SpecFault (List (Statement Float)) := do
  let some (before, relation, after) := splitRelation? segment
    | throw (.noComparison (String.ofList segment))
  let lhs := trim before
  let rhs := trim after
  if lhs.isEmpty || rhs.isEmpty then throw (.incomplete (String.ofList segment))
  let some bound := readFloat? (rhs.filter (· ≠ ' '))
    | throw (.rhsNotNumeric (String.ofList rhs))
  return (← leftSides lhs).map fun form => ⟨form.terms, relation, bound - form.constant⟩

end SimplexTableau.Specification
