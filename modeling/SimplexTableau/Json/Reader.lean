import SimplexTableau.Decimal.Numeral
import SimplexTableau.Json

/-!
# Reading JSON

A recursive-descent reader over the characters of a text. Every step is given the number of
steps still allowed. Twice the length of the text is always enough, since of two steps that
call each other one has read a character.
-/

namespace SimplexTableau.Json

open SimplexTableau.Decimal

/-- White space between tokens. -/
def skipSpace (cs : List Char) : List Char :=
  cs.dropWhile fun c => c = ' ' || c = '\t' || c = '\n' || c = '\r'

/-- The value of four hexadecimal digits and what follows them. -/
def hex4? : List Char → Option (Nat × List Char)
  | a :: b :: c :: d :: rest =>
    let digit? (c : Char) : Option Nat :=
      if c.isDigit then some (c.toNat - 48)
      else if 'a' ≤ c ∧ c ≤ 'f' then some (c.toNat - 87)
      else if 'A' ≤ c ∧ c ≤ 'F' then some (c.toNat - 55)
      else none
    match digit? a, digit? b, digit? c, digit? d with
    | some a, some b, some c, some d => some (4096 * a + 256 * b + 16 * c + d, rest)
    | _, _, _, _ => none
  | _ => none

/-- The character of a `\u` escape, which may need a second escape, and what follows. -/
def unicode? (cs : List Char) : Option (Char × List Char) := do
  let (high, rest) ← hex4? cs
  if 0xD800 ≤ high ∧ high < 0xDC00 then
    match rest with
    | '\\' :: 'u' :: rest' =>
      match hex4? rest' with
      | some (low, rest'') =>
        if 0xDC00 ≤ low ∧ low < 0xE000 then
          return (Char.ofNat (0x10000 + (high - 0xD800) * 0x400 + (low - 0xDC00)), rest'')
        else return (Char.ofNat 0xFFFD, rest)
      | none => return (Char.ofNat 0xFFFD, rest)
    | _ => return (Char.ofNat 0xFFFD, rest)
  else if 0xDC00 ≤ high ∧ high < 0xE000 then return (Char.ofNat 0xFFFD, rest)
  else return (Char.ofNat high, rest)

/-- The rest of a text up to its closing quote. -/
def text? : (steps : Nat) → List Char → Option (List Char × List Char)
  | 0, _ => none
  | _, [] => none
  | _ + 1, '"' :: rest => some ([], rest)
  | steps + 1, '\\' :: 'u' :: rest => do
    let (c, rest) ← unicode? rest
    let (cs, rest) ← text? steps rest
    return (c :: cs, rest)
  | steps + 1, '\\' :: e :: rest => do
    let c ←
      match e with
      | '"' => some '"'
      | '\\' => some '\\'
      | '/' => some '/'
      | 'b' => some '\x08'
      | 'f' => some '\x0c'
      | 'n' => some '\n'
      | 'r' => some '\r'
      | 't' => some '\t'
      | _ => none
    let (cs, rest) ← text? steps rest
    return (c :: cs, rest)
  | steps + 1, c :: rest => do
    let (cs, rest) ← text? steps rest
    return (c :: cs, rest)

/-- A run of ASCII digits at the front of a text. -/
def digits (cs : List Char) : List Char × List Char :=
  (cs.takeWhile Char.isDigit, cs.dropWhile Char.isDigit)

/-- A number: with neither point nor exponent it is whole. -/
def number? (cs : List Char) : Option (Json × List Char) := do
  let (minus, cs) :=
    match cs with
    | '-' :: rest => (true, rest)
    | _ => (false, cs)
  let (whole, cs) := digits cs
  if whole.isEmpty then none
  let (part, cs) :=
    match cs with
    | '.' :: rest => digits rest
    | _ => ([], cs)
  let (exponent, cs) :=
    match cs with
    | c :: rest =>
      if c = 'e' || c = 'E' then
        match rest with
        | '+' :: rest => ((digits rest).1, (digits rest).2)
        | '-' :: rest => ('-' :: (digits rest).1, (digits rest).2)
        | _ => digits rest
      else ([], c :: rest)
    | [] => ([], [])
  let valueOf (ds : List Char) : Nat := ofDigits (ds.map fun d => d.toNat - 48)
  if part.isEmpty && exponent.isEmpty then
    let n : Int := valueOf whole
    return (.int (if minus then -n else n), cs)
  else
    let e : Int ← if exponent.isEmpty then some 0 else bareInt? exponent
    let numeral := Numeral.finite minus (valueOf (whole ++ part)) (e - part.length)
    return (.float numeral.toFloat, cs)

mutual

/-- A value at the front of a text, and what follows it. -/
def value? : (steps : Nat) → List Char → Option (Json × List Char)
  | 0, _ => none
  | steps + 1, cs =>
    match skipSpace cs with
    | 'n' :: 'u' :: 'l' :: 'l' :: rest => some (.null, rest)
    | 't' :: 'r' :: 'u' :: 'e' :: rest => some (.bool true, rest)
    | 'f' :: 'a' :: 'l' :: 's' :: 'e' :: rest => some (.bool false, rest)
    | '"' :: rest =>
      (text? (rest.length + 1) rest).map fun (s, rest) => (.str (String.ofList s), rest)
    | '[' :: rest =>
      match skipSpace rest with
      | ']' :: rest => some (.arr [], rest)
      | rest => (items? steps rest).map fun (items, rest) => (.arr items, rest)
    | '\x7b' :: rest =>
      match skipSpace rest with
      | '\x7d' :: rest => some (.obj [], rest)
      | rest => (fields? steps rest).map fun (fields, rest) => (ofFields fields, rest)
    | cs => number? cs

/-- The items of a list up to its closing bracket. -/
def items? : (steps : Nat) → List Char → Option (List Json × List Char)
  | 0, _ => none
  | steps + 1, cs => do
    let (item, rest) ← value? steps cs
    match skipSpace rest with
    | ',' :: rest =>
      let (items, rest) ← items? steps rest
      return (item :: items, rest)
    | ']' :: rest => return ([item], rest)
    | _ => none

/-- The fields of an object up to its closing brace. -/
def fields? : (steps : Nat) → List Char → Option (List (String × Json) × List Char)
  | 0, _ => none
  | steps + 1, cs =>
    match skipSpace cs with
    | '"' :: rest => do
      let (key, rest) ← text? (rest.length + 1) rest
      match skipSpace rest with
      | ':' :: rest =>
        let (value, rest) ← value? steps rest
        let field := (String.ofList key, value)
        match skipSpace rest with
        | ',' :: rest =>
          let (fields, rest) ← fields? steps rest
          return (field :: fields, rest)
        | '\x7d' :: rest => return ([field], rest)
        | _ => none
      | _ => none
    | _ => none

end

/-- Reads a text that is one JSON value. -/
def read? (text : String) : Option Json :=
  let cs := text.toList
  match value? (2 * cs.length + 2) cs with
  | some (value, rest) => if (skipSpace rest).isEmpty then some value else none
  | none => none

end SimplexTableau.Json
