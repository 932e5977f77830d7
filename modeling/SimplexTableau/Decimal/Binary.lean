import SimplexTableau.Decimal.Power

/-!
# Doubles as exact binary fractions

A finite double is a sign, a natural mantissa and a power of two. Every decimal text of
a double is computed from this exact value, never from another rounded text.
-/

namespace SimplexTableau.Decimal

/-- What a double stands for: no number, an infinity, or `± mantissa * 2 ^ exponent`. -/
inductive Binary where
  | nan
  | infinite (negative : Bool)
  | finite (negative : Bool) (mantissa : Nat) (exponent : Int)
  deriving Repr, DecidableEq

namespace Binary

/-- Takes the sign, the eleven exponent bits and the fraction bits of a double apart. -/
def ofBits (bits : Nat) : Binary :=
  let negative : Bool := bits / twoTo 63 % 2 == 1
  let biased : Nat := bits / twoTo 52 % twoTo 11
  let fraction : Nat := bits % twoTo 52
  if biased = 2047 then
    if fraction = 0 then .infinite negative else .nan
  else if biased = 0 then .finite negative fraction (-1074)
  else .finite negative (twoTo 52 + fraction) ((biased : Int) - 1075)

/-- The exact value of a double. -/
def ofFloat (x : Float) : Binary :=
  ofBits x.toBits.toNat

end Binary

/-- The quotient of natural numbers equal to `mantissa * 2 ^ exponent`. -/
def binaryQuotient (mantissa : Nat) : Int → Nat × Nat
  | .ofNat k => (mantissa * twoTo k, 1)
  | .negSucc k => (mantissa, twoTo (k + 1))

end SimplexTableau.Decimal
