import SimplexTableau.Specification.Segment

/-!
# Reading a specification

A specification names the direction and the objective, then, after `subject to`, `such that` or
`s.t.`, the constraints. Variables are numbered by first appearance. Statements that a variable
is not negative are dropped, but their variables count.
-/

namespace SimplexTableau.Specification

open SimplexTableau.Text

/-- The width of a phrase that introduces the constraints. -/
def introductionWidth (_before : Option Char) (rest : List Char) : Nat :=
  match firstPhrase? ["subject to", "such that", "s.t."] rest with
  | some (phrase, _) => phrase.length
  | none => 0

/-- The words that name a direction; the first one that fits is taken. -/
def directionWords : List (String × Direction) :=
  [("maximize", .max), ("minimize", .min), ("maximise", .max), ("minimise", .min),
    ("max", .max), ("min", .min)]

/-- The direction named at the front of a text, and what follows it. -/
def direction? (text : List Char) : Option (Direction × List Char) :=
  directionWords.findSome? fun (word, direction) =>
    (afterPhrase? word.toList text).map (direction, ·)

/-- Passes over `z =` at the front of a text. -/
def dropName (text : List Char) : List Char :=
  match text with
  | c :: rest =>
    if sameLetter 'z' c then
      match rest.dropWhile isBlank with
      | '=' :: after => after
      | _ => text
    else text
  | [] => text

/-- The direction and the expression of an objective. -/
def objective? (text : List Char) : Except SpecFault (Direction × LinearForm Float) := do
  let some (direction, rest) := direction? text | throw .noDirection
  let body := trim (dropName (rest.dropWhile isBlank))
  if body.isEmpty then throw .noObjective
  let form ← expression? body
  if 1e-12 < size form.constant then throw .objectiveConstant
  return (direction, form)

/-- Reads a specification as a problem. -/
def read (spec : String) : Except SpecFault (Problem Float) := do
  let text := collapse spec.toList
  if text.isEmpty then throw .empty
  let parts := cut introductionWidth none 0 text
  let (direction, objective) ← objective? (trim (parts.headD []))
  let found ← (← segments (trim (parts.getD 1 []))).mapM statements
  let all := found.flatten
  let names := all.foldl (fun names s => addNames names s.terms) (addNames [] objective.terms)
  return assemble direction objective.terms names (all.filter (!·.isNonNegativity))

end SimplexTableau.Specification
