import SimplexTableau.Json
import SimplexTableau.Record.Written

/-!
# Checking records

Records are read from JSON field by field. A field that does not fit leaves an issue with its
place and kind, and all issues of a record are collected in the order of its fields.
-/

namespace SimplexTableau.Record

open SimplexTableau.Decimal

/-- A step on the way to a value. -/
inductive Place where
  | key (name : String)
  | index (n : Nat)
  deriving Repr, DecidableEq

/-- What is wrong with a value. -/
inductive IssueKind where
  | missing
  | recordType
  | floatType
  | floatParsing
  | intType
  | intParsing
  | intParsingSize
  | intFromFloat
  | finiteNumber
  | boolType
  | boolParsing
  | stringType
  | listType
  | objectType
  | choice
  | enumeration
  | greaterThan
  | greaterThanEqual
  /-- The parts fit, but not together. -/
  | rule (message : String)
  deriving Repr, DecidableEq

def IssueKind.name : IssueKind → String
  | .missing => "missing"
  | .recordType => "model_type"
  | .floatType => "float_type"
  | .floatParsing => "float_parsing"
  | .intType => "int_type"
  | .intParsing => "int_parsing"
  | .intParsingSize => "int_parsing_size"
  | .intFromFloat => "int_from_float"
  | .finiteNumber => "finite_number"
  | .boolType => "bool_type"
  | .boolParsing => "bool_parsing"
  | .stringType => "string_type"
  | .listType => "list_type"
  | .objectType => "dict_type"
  | .choice => "literal_error"
  | .enumeration => "enum"
  | .greaterThan => "greater_than"
  | .greaterThanEqual => "greater_than_equal"
  | .rule _ => "value_error"

/-- A place and what is wrong there. -/
structure Issue where
  place : List Place
  kind : IssueKind
  deriving Repr, DecidableEq

/-- A value, or all the issues that were found. -/
inductive Checked (α : Type) where
  | ok (value : α)
  | issues (found : List Issue)

namespace Checked

variable {α β : Type}

/-- Both parts are checked, and the issues of both are kept. -/
instance : Applicative Checked where
  pure := .ok
  seq f x :=
    match f, x () with
    | .ok f, .ok a => .ok (f a)
    | .ok _, .issues found => .issues found
    | .issues found, .ok _ => .issues found
    | .issues first, .issues second => .issues (first ++ second)

def fail (kind : IssueKind) : Checked α :=
  .issues [⟨[], kind⟩]

/-- Goes on with a value once it is known to be sound. -/
def andThen (x : Checked α) (f : α → Checked β) : Checked β :=
  match x with
  | .ok a => f a
  | .issues found => .issues found

/-- Says that issues were found one step down. -/
def under (place : Place) : Checked α → Checked α
  | .ok a => .ok a
  | .issues found => .issues (found.map fun i => { i with place := place :: i.place })

def toExcept : Checked α → Except (List Issue) α
  | .ok a => .ok a
  | .issues found => .error found

end Checked

/-- A way to read a value. -/
abbrev Reader (α : Type) := Json → Checked α

namespace Reader

variable {α β : Type}

/-- A number, a truth value or a numeral. A whole number beyond the range of doubles is none of
them. -/
def float : Reader Float
  | .int n =>
    let x := ofInt n
    if x.isFinite then .ok x else .fail .floatType
  | .float x => .ok x
  | .bool b => .ok (if b then 1 else 0)
  | .str s =>
    match writtenFloat? s.toList with
    | some x => .ok x
    | none => .fail .floatParsing
  | _ => .fail .floatType

/-- Whole doubles are accepted as whole numbers below this size. -/
def wholeLimit : Float := 9223372036854775808.0

/-- A whole number, which may be written as a decimal without fraction or as a text. -/
def int : Reader Int
  | .int n => .ok n
  | .bool b => .ok (if b then 1 else 0)
  | .float x =>
    if !x.isFinite then .fail .finiteNumber
    else if x.floor != x then .fail .intFromFloat
    else if x.abs < wholeLimit then .ok x.toInt64.toInt
    else .fail .intParsingSize
  | .str s =>
    match writtenWhole s.toList with
    | .ok n => .ok n
    | .error .malformed => .fail .intParsing
    | .error (.tooLong _) => .fail .intParsingSize
  | _ => .fail .intType

/-- A truth value, which may be written as zero or one or as a word. Any other number is refused
by its value if it is a whole one of 64 bits, else by its type. -/
def bool : Reader Bool
  | .bool b => .ok b
  | .int n =>
    if n = 0 then .ok false
    else if n = 1 then .ok true
    else if -9223372036854775808 ≤ n ∧ n < 9223372036854775808 then .fail .boolParsing
    else .fail .boolType
  | .float x =>
    if x == 0 then .ok false
    else if x == 1 then .ok true
    else if x.floor == x && x.abs < wholeLimit then .fail .boolParsing
    else .fail .boolType
  | .str s =>
    let word := String.ofList (s.toList.map Char.toLower)
    if ["1", "true", "t", "yes", "y", "on"].contains word then .ok true
    else if ["0", "false", "f", "no", "n", "off"].contains word then .ok false
    else .fail .boolParsing
  | _ => .fail .boolType

def string : Reader String
  | .str s => .ok s
  | _ => .fail .stringType

/-- A list, every item of which is read. -/
def list (item : Reader α) : Reader (List α)
  | .arr items =>
    (items.zipIdx.map fun (value, i) => (item value).under (.index i)).foldr
      (fun x xs => (· :: ·) <$> x <*> xs) (.ok [])
  | _ => .fail .listType

/-- An object whose values are all read in the same way. -/
def table (item : Reader α) : Reader (List (String × α))
  | .obj fields =>
    (fields.map fun (key, value) => ((key, ·) <$> (item value).under (.key key) : Checked _)).foldr
      (fun x xs => (· :: ·) <$> x <*> xs) (.ok [])
  | _ => .fail .objectType

/-- Null, or a value. -/
def optional (item : Reader α) : Reader (Option α)
  | .null => .ok none
  | value => some <$> item value

/-- One of several words. -/
def oneOf (choices : List (String × α)) (otherwise : IssueKind := .choice) : Reader α
  | .str s =>
    match choices.lookup s with
    | some a => .ok a
    | none => .fail otherwise
  | _ => .fail otherwise

/-- A number above a bound. -/
def above (bound : Float) : Reader Float := fun value =>
  (float value).andThen fun x => if bound < x then .ok x else .fail .greaterThan

/-- A whole number not below a bound. -/
def atLeast (bound : Int) : Reader Int := fun value =>
  (int value).andThen fun n => if bound ≤ n then .ok n else .fail .greaterThanEqual

/-- A record is read from an object alone. -/
def record (fields : Json → Checked α) : Reader α
  | .obj entries => fields (.obj entries)
  | _ => .fail .recordType

end Reader

variable {α : Type}

/-- A field that must be there. -/
def required (object : Json) (key : String) (item : Reader α) : Checked α :=
  Checked.under (.key key) <|
    match object.field? key with
    | some value => item value
    | none => .fail .missing

/-- A field with a value to fall back on. -/
def defaulted (object : Json) (key : String) (item : Reader α) (fallback : α) : Checked α :=
  match object.field? key with
  | some value => (item value).under (.key key)
  | none => .ok fallback

end SimplexTableau.Record
