import SimplexTableau.Decimal.Numeral
import SimplexTableau.Specification
import SimplexTableau.Text.Word

/-!
# Linear expressions

An expression is read in two passes. The first takes the terms, each a sign, a numeral and a
name with blanks in between; the second takes the numbers from what is left, where the terms
are blanked out. Asterisks are ignored, and so is any character that belongs to neither. The
blanks inside a numeral are left out. In the text of a specification runs of blanks are single
spaces by then, so these blanks are spaces.
-/

namespace SimplexTableau.Specification

open SimplexTableau.Text SimplexTableau.Decimal

/-- A term as written: its sign and numeral without blanks, its name, and its width. -/
structure Term where
  coefficient : List Char
  name : List Char
  width : Nat
  deriving Repr, DecidableEq

/-- A sign at the front of a text, if there is one, and what follows. -/
def signText : List Char → List Char × List Char
  | [] => ([], [])
  | c :: cs => if c = '+' || c = '-' then ([c], cs) else ([], c :: cs)

/-- A decimal point at the front of a text, if there is one, and what follows. -/
def pointText : List Char → List Char × List Char
  | '.' :: cs => (['.'], cs)
  | cs => ([], cs)

/-- The term that starts at the front of a text, with the blanks behind its sign left out. -/
def termAt? (cs : List Char) : Option Term :=
  let (sign, afterSign) := signText cs
  let unsigned := afterSign.dropWhile isBlank
  let whole := unsigned.takeWhile isDigit
  let (point, afterPoint) := pointText (unsigned.dropWhile isDigit)
  let part := afterPoint.takeWhile isDigit
  match name? ((afterPoint.dropWhile isDigit).dropWhile isBlank) with
  | some (name, rest) => some ⟨sign ++ whole ++ point ++ part, name, cs.length - rest.length⟩
  | none => none

/-- A term of an expression or a character outside all terms. -/
inductive Piece where
  | term (t : Term)
  | stray (c : Char)
  deriving Repr, DecidableEq

/-- Takes the terms from left to right; `skip` characters of a term are still to be passed
over. -/
def pieces : (skip : Nat) → List Char → List Piece
  | _, [] => []
  | skip + 1, _ :: cs => pieces skip cs
  | 0, c :: cs =>
    match termAt? (c :: cs) with
    | some t => .term t :: pieces (t.width - 1) cs
    | none => .stray c :: pieces 0 cs

/-- The text of an expression with its terms blanked out. -/
def leftOver (ps : List Piece) : List Char :=
  ps.flatMap fun
    | .term t => List.replicate t.width ' '
    | .stray c => [c]

/-- The number that starts at the front of a text, with the blanks behind its sign left out, and
its width. A point counts only between digits. -/
def numberAt? (cs : List Char) : Option (List Char × Nat) :=
  let (sign, afterSign) := signText cs
  let unsigned := afterSign.dropWhile isBlank
  let whole := unsigned.takeWhile isDigit
  let rest := unsigned.dropWhile isDigit
  let lead := cs.length - rest.length
  if whole.isEmpty then none
  else
    match rest with
    | '.' :: afterPoint =>
      let part := afterPoint.takeWhile isDigit
      if part.isEmpty then some (sign ++ whole, lead)
      else some (sign ++ whole ++ '.' :: part, lead + 1 + part.length)
    | _ => some (sign ++ whole, lead)

/-- Takes the numbers from left to right. -/
def numbers : (skip : Nat) → List Char → List (List Char)
  | _, [] => []
  | skip + 1, _ :: cs => numbers skip cs
  | 0, c :: cs =>
    match numberAt? (c :: cs) with
    | some (text, width) => text :: numbers (width - 1) cs
    | none => numbers 0 cs

/-- The value of a coefficient; a missing numeral stands for one. -/
def coefficientValue (text : List Char) : Except SpecFault Float :=
  if text = [] || text = ['+'] then .ok 1
  else if text = ['-'] then .ok (-1)
  else
    match readFloat? text with
    | some x => .ok x
    | none => .error (.coefficient (String.ofList text))

/-- Sums the coefficients of each variable from left to right. -/
def sumTerms : List Piece → List (String × Float) → Except SpecFault (List (String × Float))
  | [], terms => .ok terms
  | .stray _ :: ps, terms => sumTerms ps terms
  | .term t :: ps, terms => do
    let value ← coefficientValue t.coefficient
    sumTerms ps (addTerm (String.ofList t.name) value terms)

/-- Reads a linear expression with at least one variable. -/
def expression? (text : List Char) : Except SpecFault (LinearForm Float) := do
  let ps := pieces 0 (text.filter (· ≠ '*'))
  let terms ← sumTerms ps []
  let constant := ((numbers 0 (leftOver ps)).filterMap readFloat?).foldl (· + ·) 0
  if terms.isEmpty then throw (.noVariables (String.ofList text))
  return ⟨terms, constant⟩

end SimplexTableau.Specification
