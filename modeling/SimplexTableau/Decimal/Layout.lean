import SimplexTableau.Decimal.Rounding

/-!
# Placing the digits of a decimal number

Significant digits and a decimal exponent become text in one of two ways: positional,
or with a power of ten written after an `e`. A `Style` says which exponents are written
positionally and whether a whole number keeps a `.0`.
-/

namespace SimplexTableau.Decimal

/-- Which decimal exponents are positional, and whether whole numbers end in `.0`. -/
structure Style where
  positionalFrom : Int
  positionalBelow : Int
  wholeSuffix : String

/-- The power of ten after the digits has a sign and at least two digits. -/
def exponentText (exponent : Int) : String :=
  let size := exponent.natAbs
  (if exponent < 0 then "e-" else "e+") ++ (if size < 10 then "0" else "") ++ toString size

/-- Writes `digits` (not empty, no trailing zero after the first) with the first of them
at the place of `10 ^ exponent`. -/
def Style.layout (style : Style) (digits : List Char) (exponent : Int) : String :=
  if style.positionalFrom ≤ exponent ∧ exponent < style.positionalBelow then
    match exponent with
    | .ofNat e =>
      let whole := digits.take (e + 1) ++ List.replicate (e + 1 - digits.length) '0'
      let part := digits.drop (e + 1)
      String.ofList whole ++
        (if part.isEmpty then style.wholeSuffix else "." ++ String.ofList part)
    | .negSucc e => "0." ++ String.ofList (List.replicate e '0' ++ digits)
  else
    let part := digits.drop 1
    String.ofList (digits.take 1) ++
      (if part.isEmpty then "" else "." ++ String.ofList part) ++ exponentText exponent

/-- Drops the trailing zeros of a digit list but keeps its first digit. -/
def trimZeros : List Char → List Char
  | [] => []
  | d :: rest => d :: (rest.reverse.dropWhile (· = '0')).reverse

end SimplexTableau.Decimal
