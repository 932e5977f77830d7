import SimplexTableau.Decimal.Power

/-!
# Rounding of quotients

Decimal texts are computed from exact quotients of natural numbers. This file holds the
rounding of a quotient to the nearest integer, where a half goes to the even neighbour,
and the decimal exponent of a quotient.
-/

namespace SimplexTableau.Decimal

/-- The integer nearest to `num / den`; a half goes to the even neighbour. -/
def roundHalfEven (num den : Nat) : Nat :=
  let quotient := num / den
  let twice := 2 * (num % den)
  if twice < den then quotient
  else if den < twice then quotient + 1
  else if quotient % 2 = 0 then quotient
  else quotient + 1

/-- The decimal digits of a natural number, most significant first. -/
def digits (n : Nat) : List Char :=
  Nat.toDigits 10 n

/-- Multiplies a quotient by a power of ten and keeps numerator and denominator natural. -/
def scaleByTen (num den : Nat) : Int → Nat × Nat
  | .ofNat k => (num * tenTo k, den)
  | .negSucc k => (num, den * tenTo (k + 1))

/-- The exponent `e` with `10 ^ e ≤ num / den < 10 ^ (e + 1)`, for a positive quotient. -/
def decimalExponent (num den : Nat) : Int :=
  let guess : Int := (digits num).length - (digits den).length
  let (n, d) := scaleByTen num den (-guess)
  if d ≤ n then guess else guess - 1

end SimplexTableau.Decimal
