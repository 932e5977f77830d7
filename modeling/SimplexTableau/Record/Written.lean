import SimplexTableau.Decimal.Numeral

/-!
# Numbers written as texts in records

A record may give a number as a text in ASCII digits. In a decimal, single underscores may stand
anywhere but at the ends of the text. A whole number may have zeros in front, with underscores
among them, single underscores between its other digits, and a fraction of zeros.
-/

namespace SimplexTableau.Record

open SimplexTableau.Text SimplexTableau.Decimal

/-- A text without its underscores, if none of them stands at an end or beside another. -/
def withoutUnderscores? (cs : List Char) : Option (List Char) :=
  if cs.head? = some '_' || cs.getLast? = some '_' || (cs.zip cs.tail).contains ('_', '_') then
    none
  else some (cs.filter (· ≠ '_'))

/-- The double that an ASCII numeral without underscores denotes. -/
def plainFloat? (cs : List Char) : Option Float :=
  if cs.all fun c => c.toNat < 128 && c ≠ '_' then (Numeral.bare? cs).map Numeral.toFloat
  else none

/-- The double that a text in a record denotes. White space may stand around a numeral without
underscores alone. -/
def writtenFloat? (text : List Char) : Option Float :=
  match plainFloat? (strip isSpace text) with
  | some x => some x
  | none => (withoutUnderscores? text).bind plainFloat?

/-- Passes over the zeros in front of a number, and the underscores among them. A zero in front
of the point or at the end stays; the rest must start with a digit. -/
def withoutZeros? (cs : List Char) : Option (List Char) :=
  let isFill (c : Char) : Bool := c = '0' || c = '_'
  match cs with
  | '0' :: _ =>
    let endsInZero := (cs.takeWhile isFill).getLast? = some '0'
    match cs.dropWhile isFill with
    | [] => if endsInZero then some ['0'] else none
    | '.' :: part => if endsInZero then some ('0' :: '.' :: part) else none
    | c :: rest => if c.isDigit then some (c :: rest) else none
  | c :: _ => if c.isDigit then some cs else none
  | [] => none

/-- Takes a point with nothing but zeros behind it away; there must be at least one. -/
def withoutZeroFraction (cs : List Char) : List Char :=
  match cs.dropWhile (· ≠ '.') with
  | _ :: '0' :: zeros => if zeros.all (· = '0') then cs.takeWhile (· ≠ '.') else cs
  | _ => cs

/-- The whole number that a text in a record denotes. -/
def writtenWhole (text : List Char) : Except WholeFault Int :=
  let (negative, rest) := sign (strip isSpace text)
  match withoutZeros? rest with
  | none => .error .malformed
  | some digits =>
    let front := withoutZeroFraction digits
    let front := (withoutUnderscores? front).getD front
    let ds := front.takeWhile Char.isDigit
    if maxDigits < ds.length then .error (.tooLong ds.length)
    else if ds.length = front.length then
      let size : Int := ofDigits (ds.map fun d => d.toNat - 48)
      .ok (if negative then -size else size)
    else .error .malformed

end SimplexTableau.Record
