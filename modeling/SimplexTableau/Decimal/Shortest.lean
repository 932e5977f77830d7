import SimplexTableau.Decimal.Binary
import SimplexTableau.Decimal.Layout

/-!
# Shortest decimal text

A double is written with the fewest significant digits that read back to the same double;
among those the nearest to its exact value is taken. The reals that round to a double form
an interval, closed when its mantissa is even; with `k` digits only the two neighbours of the
value on the grid of `k` digits can lie in it.
-/

namespace SimplexTableau.Decimal

/-- The reals that round to a positive double, in quarters of its last place: the ends are
`low / 4` and `high / 4` last places, and belong to it when `closed` holds. -/
structure RoundingInterval where
  low : Nat
  value : Nat
  high : Nat
  closed : Bool

/-- Below a power of two the doubles lie twice as dense, so the lower end is nearer. -/
def RoundingInterval.of (mantissa : Nat) (exponent : Int) : RoundingInterval where
  low := if mantissa = twoTo 52 ∧ -1074 < exponent then 4 * mantissa - 1 else 4 * mantissa - 2
  value := 4 * mantissa
  high := 4 * mantissa + 2
  closed := mantissa % 2 = 0

/-- Whether the grid point `c * unit` lies in the interval, both scaled by `num / den`. -/
def RoundingInterval.holds (interval : RoundingInterval) (num den c : Nat) : Bool :=
  if interval.closed then interval.low * num ≤ c * den ∧ c * den ≤ interval.high * num
  else interval.low * num < c * den ∧ c * den < interval.high * num

/-- The grid point in the interval that is nearest to the value; of two equally near ones
the even one. -/
def RoundingInterval.nearest? (interval : RoundingInterval) (num den : Nat) : Option Nat :=
  let exact := interval.value * num
  let below := exact / den
  let above := below + 1
  match interval.holds num den below, interval.holds num den above with
  | true, false => some below
  | false, true => some above
  | false, false => none
  | true, true =>
    let toBelow := exact - below * den
    let toAbove := above * den - exact
    if toBelow < toAbove then some below
    else if toAbove < toBelow then some above
    else if below % 2 = 0 then some below
    else some above

/-- Tries `k`, `k + 1`, … digits; with 17 digits every double is hit. -/
def shortestFrom (interval : RoundingInterval) (num den : Nat) (exponent : Int) :
    (more k : Nat) → Nat × Int
  | 0, k => (interval.value, exponent - k)
  | more + 1, k =>
    let place := exponent + 1 - k
    let (n, d) := scaleByTen num den (-place)
    match interval.nearest? n d with
    | some c => (c, place)
    | none => shortestFrom interval num den exponent more (k + 1)

/-- The fewest digits of a positive double as a number, and the place of their last one. -/
def shortest (mantissa : Nat) (exponent : Int) : Nat × Int :=
  let (quarterNum, quarterDen) := binaryQuotient 1 (exponent - 2)
  let (num, den) := binaryQuotient mantissa exponent
  shortestFrom (.of mantissa exponent) quarterNum quarterDen (decimalExponent num den) 17 1

/-- Exponents from -4 to 15 are positional, and a whole number ends in `.0`. -/
def valueStyle : Style := ⟨-4, 16, ".0"⟩

/-- The shortest text that reads back to the same double. -/
def shortestText (x : Float) : String :=
  match Binary.ofFloat x with
  | .nan => "nan"
  | .infinite negative => if negative then "-inf" else "inf"
  | .finite negative mantissa exponent =>
    let sign := if negative then "-" else ""
    if mantissa = 0 then sign ++ "0.0"
    else
      let (number, place) := shortest mantissa exponent
      let ds := digits number
      sign ++ valueStyle.layout (trimZeros ds) (place + ds.length - 1)

end SimplexTableau.Decimal
