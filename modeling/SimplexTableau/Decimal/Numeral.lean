import SimplexTableau.Text.Blank
import SimplexTableau.Text.Digit

/-!
# Reading numerals

The texts that denote numbers: an optional sign, digits with an optional point and an
optional power of ten, or the words `inf`, `infinity` and `nan` in any case. A single
underscore may stand between two digits, digits of any script count, and white space around a
numeral is ignored. A whole number may have at most 4300 digits.
-/

namespace SimplexTableau.Decimal

open SimplexTableau.Text

/-- What a numeral denotes: no number, an infinity, or `± digits * 10 ^ exponent`. -/
inductive Numeral where
  | nan
  | infinite (negative : Bool)
  | finite (negative : Bool) (digits : Nat) (exponent : Int)
  deriving Repr, DecidableEq

/-- The digits that go on after a digit, with single underscores between them. -/
def moreDigits : List Char → List Nat × List Char
  | [] => ([], [])
  | [c] =>
    match digit? c with
    | some d => ([d], [])
    | none => ([], [c])
  | c :: c' :: cs =>
    match digit? c with
    | some d => let (ds, rest) := moreDigits (c' :: cs); (d :: ds, rest)
    | none =>
      match c, digit? c' with
      | '_', some d => let (ds, rest) := moreDigits cs; (d :: ds, rest)
      | _, _ => ([], c :: c' :: cs)

/-- A run of digits at the front of a text; it starts with a digit or is empty. -/
def digitRun : List Char → List Nat × List Char
  | [] => ([], [])
  | c :: cs =>
    match digit? c with
    | some d => let (ds, rest) := moreDigits cs; (d :: ds, rest)
    | none => ([], c :: cs)

/-- The number that a digit list denotes. -/
def ofDigits (ds : List Nat) : Nat :=
  ds.foldl (fun n d => 10 * n + d) 0

/-- An optional sign at the front of a text. -/
def sign : List Char → Bool × List Char
  | '-' :: cs => (true, cs)
  | '+' :: cs => (false, cs)
  | cs => (false, cs)

/-- A signed whole number with nothing around it. -/
def bareInt? (cs : List Char) : Option Int :=
  let (negative, rest) := sign cs
  match digitRun rest with
  | (d :: ds, []) =>
    let size : Int := ofDigits (d :: ds)
    some (if negative then -size else size)
  | _ => none

/-- The power of ten that ends a numeral; nothing else may follow. -/
def exponentPart? : List Char → Option Int
  | [] => some 0
  | c :: cs => if c = 'e' || c = 'E' then bareInt? cs else none

/-- Digits with an optional point, at least one of them, and an optional power of ten. -/
def unsigned? (negative : Bool) (cs : List Char) : Option Numeral :=
  let (whole, afterWhole) := digitRun cs
  let (part, rest) :=
    match afterWhole with
    | '.' :: afterPoint => digitRun afterPoint
    | _ => ([], afterWhole)
  if whole.isEmpty && part.isEmpty then none
  else
    (exponentPart? rest).map fun e =>
      .finite negative (ofDigits (whole ++ part)) (e - part.length)

/-- Reads a numeral that fills the whole text. -/
def Numeral.bare? (cs : List Char) : Option Numeral :=
  let (negative, rest) := sign cs
  let word := String.ofList (rest.map Char.toLower)
  if word = "inf" || word = "infinity" then some (.infinite negative)
  else if word = "nan" then some .nan
  else unsigned? negative rest

/-- Reads a numeral with nothing but white space around it. -/
def Numeral.read? (text : List Char) : Option Numeral :=
  bare? (strip isSpace text)

/-- The nearest double to `digits * 10 ^ exponent`. Beyond the range of doubles the answer is
known from the number of digits alone. -/
def nearestDouble (digits : Nat) (exponent : Int) : Float :=
  let reach : Int := (Nat.toDigits 10 digits).length + exponent
  if digits = 0 || reach < -400 then 0.0
  else if 400 < reach then 1.0 / 0.0
  else
    match exponent with
    | .ofNat e => Float.ofScientific digits false e
    | .negSucc e => Float.ofScientific digits true (e + 1)

/-- The double that a numeral denotes. -/
def Numeral.toFloat : Numeral → Float
  | .nan => 0.0 / 0.0
  | .infinite negative => if negative then -1.0 / 0.0 else 1.0 / 0.0
  | .finite negative digits exponent =>
    let size := nearestDouble digits exponent
    if negative then -size else size

/-- The double that a text denotes, if it is a numeral. -/
def readFloat? (text : List Char) : Option Float :=
  (Numeral.read? text).map Numeral.toFloat

/-- Why a text denotes no whole number. -/
inductive WholeFault where
  /-- The text is something else. -/
  | malformed
  /-- The number has too many digits. -/
  | tooLong (digits : Nat)
  deriving Repr, DecidableEq

/-- The most digits that a whole number may have. -/
def maxDigits : Nat := 4300

/-- The whole number that a text denotes, white space at its ends apart. Zeros in front count as
digits, and the digits are counted before anything behind them is looked at. -/
def readWhole (text : List Char) : Except WholeFault Int :=
  let (negative, rest) := sign (strip isSpace text)
  match digitRun rest with
  | ([], _) | (_, '_' :: _) => .error .malformed
  | (ds, after) =>
    if maxDigits < ds.length then .error (.tooLong ds.length)
    else if after.isEmpty then
      let size : Int := ofDigits ds
      .ok (if negative then -size else size)
    else .error .malformed

/-- The double nearest to a whole number, infinite beyond their range. -/
def ofInt (n : Int) : Float :=
  let size := nearestDouble n.natAbs 0
  if n < 0 then -size else size

end SimplexTableau.Decimal
