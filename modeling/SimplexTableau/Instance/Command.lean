import SimplexTableau.Instance.Seeded
import SimplexTableau.Json.Writer
import SimplexTableau.Record.Writing

/-!
# The instance generator on the command line

Options are written `--name value` or `--name=value`; a name may be shortened as long as it
stays unambiguous, and the last of several values counts. The generated problems are printed,
or written to a file.
-/

namespace SimplexTableau.Instance

open SimplexTableau.Text SimplexTableau.Decimal

/-- The options of the generator. -/
inductive Flag where
  | help
  | vars
  | constraints
  | seed
  | count
  | out
  deriving Repr, DecidableEq

/-- The full names of all options. -/
def flagNames : List (String × Flag) :=
  [("--help", .help), ("--vars", .vars), ("--constraints", .constraints), ("--seed", .seed),
    ("--count", .count), ("--out", .out)]

/-- What an argument is, seen alone. -/
inductive Argument where
  | value (text : String)
  /-- An option, with the text behind its equals sign. -/
  | flag (flag : Flag) (attached : Option String)
  | unknown
  /-- A shortened name that fits several options. -/
  | ambiguous
  deriving Repr, DecidableEq

/-- A text without the line end that it may end in. -/
def withoutLineEnd (cs : List Char) : List Char :=
  if cs.getLast? = some '\n' then cs.dropLast else cs

/-- A number with a minus sign, which is a value although it starts with a dash. A line end may
follow it. -/
def isNegativeNumber (cs : List Char) : Bool :=
  match withoutLineEnd cs with
  | '-' :: cs =>
    match cs.dropWhile isDigit with
    | [] => !cs.isEmpty
    | '.' :: part => !part.isEmpty && part.all isDigit
    | _ => false
  | _ => false

/-- The part of an argument in front of its first equals sign, and the part behind it. -/
def splitAttached (cs : List Char) : List Char × Option String :=
  match cs.dropWhile (· ≠ '=') with
  | [] => (cs, none)
  | _ :: attached => (cs.takeWhile (· ≠ '='), some (String.ofList attached))

/-- The options whose full names begin with a text. -/
def flagsWith (beginning : List Char) : List Flag :=
  (flagNames.filter fun (name, _) => beginning.isPrefixOf name.toList).map Prod.snd

/-- What follows `-h` in an argument. The letter may be repeated, also behind an equals sign;
anything else would be a value, which the option does not take. -/
def helpTail (rest : List Char) : Option String :=
  let tail :=
    match rest with
    | '=' :: more => more
    | _ => rest
  if rest.isEmpty || (!tail.isEmpty && tail.all (· = 'h')) then none else some (String.ofList tail)

/-- Says what an argument is. -/
def classify (text : String) : Argument :=
  let cs := text.toList
  let (name, attached) := splitAttached cs
  let leftover : Argument :=
    if isNegativeNumber cs || cs.contains ' ' then .value text else .unknown
  match cs with
  | '-' :: '-' :: _ =>
    match flagNames.lookup (String.ofList name) with
    | some flag => .flag flag attached
    | none =>
      match flagsWith name with
      | [] => leftover
      | [flag] => .flag flag attached
      | _ => .ambiguous
  | '-' :: 'h' :: rest => .flag .help (helpTail rest)
  | '-' :: _ :: _ => leftover
  | _ => .value text

/-- Classifies all arguments. Two dashes end the options, and fit nowhere themselves. -/
def classifyAll : List String → List Argument
  | [] => []
  | text :: rest =>
    if text = "--" then .unknown :: rest.map .value else classify text :: classifyAll rest

/-- What the generator is asked for. -/
structure Settings where
  vars : Int := 3
  constraints : Int := 3
  seed : Int := 0
  count : Int := 1
  out : Option String := none
  deriving Repr, DecidableEq

/-- Takes the value of an option over; numbers must be whole. -/
def Settings.set? (s : Settings) (flag : Flag) (text : String) : Option Settings :=
  let whole := (readWhole text.toList).toOption
  match flag with
  | .help => none
  | .out => some { s with out := some text }
  | .vars => whole.map fun n => { s with vars := n }
  | .constraints => whole.map fun n => { s with constraints := n }
  | .seed => whole.map fun n => { s with seed := n }
  | .count => whole.map fun n => { s with count := n }

/-- What the arguments amount to. -/
inductive Request where
  | help
  | refused
  | settings (s : Settings)
  deriving Repr, DecidableEq

/-- Goes through the arguments; with `spare` set, one was met that fits nowhere. -/
def requestOf : List Argument → Settings → (spare : Bool) → Request
  | [], s, spare => if spare then .refused else .settings s
  | .flag .help none :: _, _, _ => .help
  | .flag flag (some text) :: rest, s, spare =>
    match s.set? flag text with
    | some s => requestOf rest s spare
    | none => .refused
  | .flag flag none :: .value text :: rest, s, spare =>
    match s.set? flag text with
    | some s => requestOf rest s spare
    | none => .refused
  | .flag _ none :: _, _, _ => .refused
  | _ :: rest, s, _ => requestOf rest s true

/-- Reads the arguments. An ambiguous name is refused wherever it stands. -/
def request (arguments : List String) : Request :=
  let classified := classifyAll arguments
  if classified.contains .ambiguous then .refused else requestOf classified {} false

/-- What a call of the generator leaves behind: what it prints, and the path and the text of the
file it writes. -/
structure Outcome where
  exitCode : Nat
  output : String := ""
  file : Option (String × String) := none
  deriving Repr, DecidableEq

/-- The problems of consecutive seeds. -/
def Settings.problems (s : Settings) : Except ShapeFault (List (Problem Float)) :=
  (List.range s.count.toNat).mapM fun (k : Nat) => seededProblem s.vars s.constraints (s.seed + k)

/-- What is printed on a call for help. -/
def helpText : String :=
  "\n".intercalate [
    "usage: generate [-h] [--vars VARS] [--constraints CONSTRAINTS] [--seed SEED]",
    "                [--count COUNT] [--out OUT]",
    "",
    "Generate random feasible LP instances.",
    "",
    "options:",
    "  -h, --help            show this help message and exit",
    "  --vars VARS           Number of variables",
    "  --constraints CONSTRAINTS",
    "                        Number of constraints",
    "  --seed SEED           Random seed",
    "  --count COUNT         Number of instances",
    "  --out OUT             Optional output file",
    ""]

/-- Runs the generator. -/
def generate (arguments : List String) : Except ShapeFault Outcome :=
  match request arguments with
  | .help => .ok { exitCode := 0, output := helpText }
  | .refused => .ok { exitCode := 2 }
  | .settings s => do
    let text := (Json.ofList Record.ofProblem (← s.problems)).pretty 0
    match s.out with
    | some path => return { exitCode := 0, file := some (path, text) }
    | none => return { exitCode := 0, output := text ++ "\n" }

end SimplexTableau.Instance
