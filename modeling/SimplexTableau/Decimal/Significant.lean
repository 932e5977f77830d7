import SimplexTableau.Decimal.Binary
import SimplexTableau.Decimal.Layout

/-!
# Six significant digits

The numbers inside messages have six significant digits, rounded half to even from the
exact value, without trailing zeros; very small and very large ones carry a power of ten.
-/

namespace SimplexTableau.Decimal

/-- The first `count` digits of a positive quotient after rounding, and the exponent of the
first one. A value that rounds up to the next power of ten takes that exponent. -/
def roundedDigits (count num den : Nat) : Nat × Int :=
  let exponent := decimalExponent num den
  let (n, d) := scaleByTen num den (count - 1 - exponent)
  let rounded := roundHalfEven n d
  if rounded = tenTo count then (tenTo (count - 1), exponent + 1) else (rounded, exponent)

/-- Exponents from -4 to 5 are positional and a whole number is written without a point. -/
def messageStyle : Style := ⟨-4, 6, ""⟩

/-- A quotient with a sign, in six significant digits. -/
def sixDigits (negative : Bool) (num den : Nat) : String :=
  let sign := if negative then "-" else ""
  if num = 0 then sign ++ "0"
  else
    let (rounded, exponent) := roundedDigits 6 num den
    sign ++ messageStyle.layout (trimZeros (digits rounded)) exponent

/-- A double in six significant digits. -/
def sixDigitsOfFloat (x : Float) : String :=
  match Binary.ofFloat x with
  | .nan => "nan"
  | .infinite negative => if negative then "-inf" else "inf"
  | .finite negative mantissa exponent =>
    let (num, den) := binaryQuotient mantissa exponent
    sixDigits negative num den

end SimplexTableau.Decimal
