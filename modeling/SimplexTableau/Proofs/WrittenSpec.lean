import SimplexTableau.Specification.Reading

/-!
# Specifications as written

The plain form of a specification. A literal is a row of ASCII digits that may have a decimal part,
a name is an ASCII identifier other than `and`, and a sum joins signed literals with names. Each
part has a text and, next to it, the meaning that a reader takes from it: a value, a coefficient
for each name, a problem.
-/

namespace SimplexTableau.Specification.Written

open SimplexTableau.Text SimplexTableau.Decimal

/-- The ASCII text of decimal digits. -/
def digitText (ds : List (Fin 10)) : List Char :=
  ds.map fun d => Nat.digitChar d.val

/-- The text of a sign, where `plus` is written if the sign is not a minus. -/
def signWith (plus : List Char) (negative : Bool) : List Char :=
  if negative then ['-'] else plus

/-- Digits with an optional decimal part. -/
structure Literal where
  whole : List (Fin 10)
  part : List (Fin 10)
  whole_ne_nil : whole ≠ []

namespace Literal

def text (l : Literal) : List Char :=
  digitText l.whole ++ if l.part = [] then [] else '.' :: digitText l.part

/-- The double nearest to the literal. -/
def value (l : Literal) : Float :=
  nearestDouble (ofDigits ((l.whole ++ l.part).map (·.val))) (-l.part.length)

/-- The value under an optional minus sign. -/
def signed (negative : Bool) (l : Literal) : Float :=
  if negative then -l.value else l.value

end Literal

/-- The ASCII characters of an identifier. -/
def isIdentifierChar (c : Char) : Bool :=
  c.isAlphanum || c = '_'

/-- An ASCII identifier that is not the word `and`. -/
structure Name where
  first : Char
  rest : List Char
  isNameStart_first : isNameStart first = true
  all_rest : rest.all isIdentifierChar = true
  ne_and : (first :: rest).map Char.toLower ≠ ['a', 'n', 'd']

namespace Name

def text (n : Name) : List Char :=
  n.first :: n.rest

def string (n : Name) : String :=
  String.ofList n.text

end Name

/-- A signed literal and the name that it multiplies. -/
structure Summand where
  negative : Bool
  literal : Literal
  name : Name

namespace Summand

def value (s : Summand) : Float :=
  s.literal.signed s.negative

/-- The literal and the name, without the sign. -/
def body (s : Summand) : List Char :=
  s.literal.text ++ ' ' :: s.name.text

/-- The summand with the sign that joins it to the one before. -/
def joined (s : Summand) : List Char :=
  ' ' :: signWith ['+'] s.negative ++ ' ' :: s.body

end Summand

/-- Summands, of which the first has only a minus sign or none. -/
structure Sum where
  first : Summand
  more : List Summand

namespace Sum

def text (e : Sum) : List Char :=
  signWith [] e.first.negative ++ e.first.body ++ e.more.flatMap Summand.joined

def summands (e : Sum) : List Summand :=
  e.first :: e.more

/-- The names as they occur. -/
def names (e : Sum) : List String :=
  e.summands.map (·.name.string)

/-- The values with one name, summed from left to right. -/
def coefficient (e : Sum) (name : String) : Float :=
  ((e.summands.filter (·.name.string = name)).map Summand.value).foldl (· + ·) 0

end Sum

/-- The spellings of a relation. -/
inductive Sign where
  | le
  | ge
  | eq
  | eqEq
  | eqLt
  | eqGt

namespace Sign

def text : Sign → List Char
  | .le => ['<', '=']
  | .ge => ['>', '=']
  | .eq => ['=']
  | .eqEq => ['=', '=']
  | .eqLt => ['=', '<']
  | .eqGt => ['=', '>']

def relation : Sign → Relation
  | .le | .eqLt => .le
  | .ge | .eqGt => .ge
  | .eq | .eqEq => .eq

end Sign

/-- A sum, a relation and a bound. -/
structure Clause where
  left : Sum
  sign : Sign
  negative : Bool
  bound : Literal

namespace Clause

/-- The text up to the bound. -/
def front (c : Clause) : List Char :=
  c.left.text ++ ' ' :: c.sign.text

def boundText (c : Clause) : List Char :=
  signWith [] c.negative ++ c.bound.text

def text (c : Clause) : List Char :=
  c.front ++ ' ' :: c.boundText

def rhs (c : Clause) : Float :=
  c.bound.signed c.negative

/-- Whether the clause says of a single variable, with a positive coefficient, that it is at least
zero, up to `1e-12`. -/
def isNonNegativity (c : Clause) : Bool :=
  c.sign.relation = .ge && !decide (1e-12 < size c.rhs) &&
    c.left.names.all (· = c.left.first.name.string) &&
    decide (0 < c.left.coefficient c.left.first.name.string)

end Clause

/-- A direction, an objective and any number of clauses. -/
structure Spec where
  maximise : Bool
  objective : Sum
  clauses : List Clause

namespace Spec

def goal (s : Spec) : List Char :=
  (if s.maximise then "maximize " else "minimize ").toList ++ s.objective.text

def text (s : Spec) : List Char :=
  s.goal ++ " subject to ".toList ++ ", ".toList.intercalate (s.clauses.map Clause.text)

/-- The distinct names by first appearance. -/
def names (s : Spec) : List String :=
  (s.objective.names ++ s.clauses.flatMap (·.left.names)).eraseDups

/-- What the specification says, in the variables that it names. -/
def problem (s : Spec) : Problem Float where
  direction := if s.maximise then .max else .min
  objective := s.names.map s.objective.coefficient
  constraints := ((s.clauses.filter (!·.isNonNegativity)).zipIdx 1).map fun (c, i) =>
    ⟨s!"c{i}", s.names.map c.left.coefficient, c.sign.relation, c.rhs⟩

end Spec

end SimplexTableau.Specification.Written
