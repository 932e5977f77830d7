/-!
# Powers of two and ten

The powers of the two bases between which numbers are converted.
-/

namespace SimplexTableau.Decimal

/-- Two to a natural power. -/
def twoTo (k : Nat) : Nat :=
  Nat.pow 2 k

/-- Ten to a natural power. -/
def tenTo (k : Nat) : Nat :=
  Nat.pow 10 k

theorem twoTo_pos (k : Nat) : 0 < twoTo k :=
  Nat.pow_pos (by decide)

end SimplexTableau.Decimal
