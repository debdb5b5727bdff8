import OpenApiClient.Decimal.Binary64

/-!
# Shortest Decimals

The fewest decimal digits that read back to a given floating-point number, and among those of that
number the nearest to it. The reals that read back form an interval around the number; digit
strings of growing length are tried until one of the two neighbours of the number on that decimal
grid lies inside.
-/

namespace OpenApiClient.Decimal

/-! ## The interval -/

/-- A positive finite number with the interval of reals that round to it, all over one
denominator. The ends belong to the interval when `closed` holds. -/
structure RoundingInterval where
  lower : Nat
  value : Nat
  upper : Nat
  denominator : Nat
  closed : Bool

/-- The interval of `significand * 2 ^ exponent`. The gap to the next smaller number halves at a
power of two. -/
def RoundingInterval.of (significand : Nat) (exponent : Int) : RoundingInterval :=
  let (unit, den) := Binary64.powerOfTwo exponent
  let value := 4 * significand * unit
  let below :=
    if significand == Binary64.leadingUnit && exponent > Binary64.minExponent then unit
    else 2 * unit
  ⟨value - below, value, value + 2 * unit, 4 * den, significand % 2 == 0⟩

/-- Whether `num / den` lies in the interval. -/
def RoundingInterval.holds (interval : RoundingInterval) (num den : Nat) : Bool :=
  let scaled := num * interval.denominator
  if interval.closed then interval.lower * den ≤ scaled && scaled ≤ interval.upper * den
  else interval.lower * den < scaled && scaled < interval.upper * den

/-! ## The grid -/

/-- `10 ^ exponent` as a fraction. -/
def powerOfTen (exponent : Int) : Nat × Nat :=
  (Nat.pow 10 exponent.toNat, Nat.pow 10 (-exponent).toNat)

/-- The exponent of the leading digit of `num / den`: the `p` with
`10 ^ p ≤ num / den < 10 ^ (p + 1)`. -/
def leadingExponent (num den : Nat) : Int :=
  if num ≥ den then Int.ofNat (Nat.toDigits 10 (num / den)).length - 1
  else
    let places := (Nat.toDigits 10 (den / num)).length
    if num * Nat.pow 10 (places - 1) ≥ den then 1 - Int.ofNat places else -Int.ofNat places

/-- The neighbour of the value on the grid `10 ^ grid` that lies in the interval; of two the nearer
one, of two equally near the even one. -/
def RoundingInterval.neighbour? (interval : RoundingInterval) (grid : Int) : Option Nat :=
  let (gridNum, gridDen) := powerOfTen grid
  let num := interval.value * gridDen
  let den := interval.denominator * gridNum
  let below := num / den
  let remainder := num % den
  let above := below + 1
  let holdsBelow := interval.holds (below * gridNum) gridDen
  let holdsAbove := interval.holds (above * gridNum) gridDen
  let prefersAbove := 2 * remainder > den || (2 * remainder == den && below % 2 == 1)
  if holdsBelow && holdsAbove then some (if prefersAbove then above else below)
  else if holdsBelow then some below
  else if holdsAbove then some above
  else none

/-- Tries grids of `count`, `count + 1`, … digits, `rounds` of them at most. -/
def RoundingInterval.search (interval : RoundingInterval) (leading : Int) :
    (rounds count : Nat) → Nat × Int
  | 0, _ => (0, 0)
  | rounds + 1, count =>
    let grid := leading - Int.ofNat count + 1
    match interval.neighbour? grid with
    | some digits => (digits, grid)
    | none => interval.search leading rounds (count + 1)

/-! ## Digits -/

/-- A positive decimal `0.d₁d₂… * 10 ^ point`, without trailing zeros. -/
structure Digits where
  digits : List Char
  point : Int
  deriving DecidableEq, Repr

/-- The shortest digits of a positive number. Seventeen always suffice. -/
def shortestDigits (significand : Nat) (exponent : Int) : Digits :=
  let interval := RoundingInterval.of significand exponent
  let leading := leadingExponent interval.value interval.denominator
  let (found, grid) := interval.search leading 17 1
  let digits := Nat.toDigits 10 found
  ⟨(digits.reverse.dropWhile (· == '0')).reverse, Int.ofNat digits.length + grid⟩

end OpenApiClient.Decimal
