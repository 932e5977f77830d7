import SimplexTableau.Decimal.Significant

/-!
# Arithmetics

The tableau method is written once for every arithmetic. A `Scalar` type has the field
operations, the two order tests, decimal literals and a text for messages; no law is asked
for. Programs run on doubles, and statements about exact values are made on rationals.
-/

namespace SimplexTableau

/-- An arithmetic in which tableaux can be computed. -/
class Scalar (α : Type) extends Zero α, One α, Neg α, Add α, Sub α, Mul α, Div α, LT α, LE α,
    OfScientific α where
  decidableLT : DecidableLT α
  decidableLE : DecidableLE α
  /-- Whether a number is neither infinite nor undefined. -/
  isFinite : α → Bool
  /-- The text of a number in messages, in six significant digits. -/
  message : α → String

attribute [reducible, instance] Scalar.decidableLT Scalar.decidableLE

/-- Doubles round every operation to nearest. -/
instance : Scalar Float where
  decidableLT := Float.decLt
  decidableLE := Float.decLe
  isFinite := Float.isFinite
  message := Decimal.sixDigitsOfFloat

/-- Rationals are exact. -/
instance : Scalar Rat where
  toZero := Zero.ofOfNat0
  toOne := One.ofOfNat1
  decidableLT := Rat.instDecidableLt
  decidableLE := Rat.instDecidableLe
  isFinite _ := true
  message q := Decimal.sixDigits (q < 0) q.num.natAbs q.den

variable {α : Type} [Scalar α]

/-- The absolute value, by comparison with zero. -/
def size (x : α) : α :=
  if x < 0 then -x else x

/-- The larger of two numbers; the first one unless the second exceeds it. -/
def larger (x y : α) : α :=
  if x < y then y else x

/-- Values closer to zero than `1e-12` are reported as zero. -/
def clean (x : α) : α :=
  if size x < 1e-12 then 0 else x

end SimplexTableau
