import SimplexTableau.Decimal.Binary
import SimplexTableau.Decimal.Rounding

/-!
# Two decimal places

Amounts in tables are rounded to hundredths from their exact value, a half going to the
even hundredth, and written with two decimals. The text is then shortened: a whole number of
units loses its decimals, and a zero that is left its sign.
-/

namespace SimplexTableau.Decimal

/-- The hundredths nearest to a quotient; a half goes to the even neighbour. -/
def hundredths (num den : Nat) : Nat :=
  roundHalfEven (100 * num) den

/-- Two digits for a number below one hundred. -/
def twoDigits (n : Nat) : String :=
  (if n < 10 then "0" else "") ++ toString n

/-- A number of hundredths with a sign and two decimals. -/
def hundredthsText (negative : Bool) (count : Nat) : String :=
  (if negative then "-" else "") ++ toString (count / 100) ++ "." ++ twoDigits (count % 100)

/-- A double with two decimals. -/
def fixedText (x : Float) : String :=
  match Binary.ofFloat x with
  | .nan => "nan"
  | .infinite negative => if negative then "-inf" else "inf"
  | .finite negative mantissa exponent =>
    let (num, den) := binaryQuotient mantissa exponent
    hundredthsText negative (hundredths num den)

/-- A text without its decimals if they are zeros, and without the sign of a zero that is left. -/
def shortened (text : List Char) : List Char :=
  let whole := if ['.', '0', '0'].isSuffixOf text then text.take (text.length - 3) else text
  if whole = ['-', '0'] then ['0'] else whole

/-- A double rounded to two decimals, as it stands in tables. -/
def twoPlaces (x : Float) : String :=
  String.ofList (shortened (fixedText x).toList)

/-- The double nearest to the value of `x` rounded to hundredths; the sign is kept. -/
def roundToHundredths (x : Float) : Float :=
  match Binary.ofFloat x with
  | .finite negative mantissa exponent =>
    let (num, den) := binaryQuotient mantissa exponent
    let size := Float.ofScientific (hundredths num den) true 2
    if negative then -size else size
  | _ => x

end SimplexTableau.Decimal
