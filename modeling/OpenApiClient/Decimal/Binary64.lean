/-!
# Binary Floating-Point Numbers

The 64-bit binary format as an exact type: a sign, a significand below `2 ^ 53` and a power of two.
Every operation takes the exact result first and rounds it once, to the nearest number and to the
even significand when two are equally near.

## Layers

- The numbers, and the fraction that a finite one equals
- Rounding a fraction
- Sums, products, and comparison with whole numbers
-/

namespace OpenApiClient.Decimal

/-! ## The numbers -/

/-- A floating-point number. A finite one is `± significand * 2 ^ exponent`, with the significand
in `[2 ^ 52, 2 ^ 53)` unless the exponent is the least one. -/
inductive Binary64 where
  | nan
  | infinite (negative : Bool)
  | finite (negative : Bool) (significand : Nat) (exponent : Int)
  deriving DecidableEq, Repr, Inhabited

namespace Binary64

/-- The least exponent of a finite number. -/
def minExponent : Int := -1074

/-- The greatest exponent of a finite number. -/
def maxExponent : Int := 971

/-- The number of values that a normal significand takes: `2 ^ 52`, and also the least of them. -/
def leadingUnit : Nat := Nat.pow 2 52

/-- Zero of either sign. -/
def zero (negative : Bool) : Binary64 :=
  .finite negative 0 minExponent

/-- Whether the number is zero of either sign. -/
def isZero : Binary64 → Bool
  | .finite _ significand _ => significand == 0
  | _ => false

/-- Whether the sign is a minus. -/
def isNegative : Binary64 → Bool
  | .nan => false
  | .infinite negative => negative
  | .finite negative _ _ => negative

/-- The number of the other sign. -/
def neg : Binary64 → Binary64
  | .nan => .nan
  | .infinite negative => .infinite !negative
  | .finite negative significand exponent => .finite (!negative) significand exponent

/-- `2 ^ exponent` as a fraction: numerator and denominator. -/
def powerOfTwo (exponent : Int) : Nat × Nat :=
  (Nat.pow 2 exponent.toNat, Nat.pow 2 (-exponent).toNat)

/-! ## Rounding -/

/-- The quotient `numerator / denominator` rounded to the nearest whole number, to the even one
when two are equally near. -/
def roundQuotient (numerator denominator : Nat) : Nat :=
  let quotient := numerator / denominator
  let twice := 2 * (numerator % denominator)
  if twice > denominator || (twice == denominator && quotient % 2 == 1) then quotient + 1
  else quotient

/-- The floating-point number nearest to `± numerator / denominator`. -/
def ofFraction (negative : Bool) (numerator denominator : Nat) : Binary64 :=
  if numerator == 0 then zero negative
  else
    let guess := max (Int.ofNat numerator.log2 - Int.ofNat denominator.log2 - 53) minExponent
    let (guessNum, guessDen) := powerOfTwo guess
    let fits := numerator * guessDen / (denominator * guessNum) < 2 * leadingUnit
    let exponent := if fits then guess else guess + 1
    let (unitNum, unitDen) := powerOfTwo exponent
    let rounded := roundQuotient (numerator * unitDen) (denominator * unitNum)
    let (significand, exponent) :=
      if rounded == 2 * leadingUnit then (leadingUnit, exponent + 1) else (rounded, exponent)
    if exponent > maxExponent then .infinite negative
    else .finite negative significand exponent

/-- The floating-point number nearest to a whole number. -/
def ofInt (n : Int) : Binary64 :=
  ofFraction (n < 0) n.natAbs 1

/-- The floating-point number nearest to `± digits * 10 ^ exponent`. Powers of ten far outside the
range of the format are decided by the number of digits alone. -/
def ofDecimal (negative : Bool) (digits : Nat) (exponent : Int) : Binary64 :=
  let magnitude := Int.ofNat (Nat.toDigits 10 digits).length + exponent
  if digits == 0 then zero negative
  else if magnitude > 310 then .infinite negative
  else if magnitude < -330 then zero negative
  else ofFraction negative (digits * Nat.pow 10 exponent.toNat) (Nat.pow 10 (-exponent).toNat)

/-! ## Arithmetic -/

/-- The rounded product. -/
def mul : Binary64 → Binary64 → Binary64
  | .finite s m e, .finite t n f =>
    let (num, den) := powerOfTwo (e + f)
    ofFraction (s != t) (m * n * num) den
  | .infinite s, .infinite t => .infinite (s != t)
  | .infinite s, .finite t n _ => if n == 0 then .nan else .infinite (s != t)
  | .finite s m _, .infinite t => if m == 0 then .nan else .infinite (s != t)
  | _, _ => .nan

/-- The rounded sum. -/
def add : Binary64 → Binary64 → Binary64
  | .finite s m e, .finite t n f =>
    let unit := min e f
    let (num, den) := powerOfTwo unit
    let signed (negative : Bool) (significand : Nat) (exponent : Int) : Int :=
      let size := Int.ofNat (significand * Nat.pow 2 (exponent - unit).toNat)
      if negative then -size else size
    let total := signed s m e + signed t n f
    if total == 0 then zero (s && t)
    else ofFraction (total < 0) (total.natAbs * num) den
  | .infinite s, .infinite t => if s == t then .infinite s else .nan
  | .infinite s, .finite .. => .infinite s
  | .finite .., .infinite t => .infinite t
  | _, _ => .nan

/-! ## Whole numbers -/

/-- The whole number that a floating-point number equals, if there is one. -/
def toInt? : Binary64 → Option Int
  | .finite negative significand exponent =>
    let (num, den) := powerOfTwo exponent
    if (significand * num) % den == 0 then
      let size := Int.ofNat (significand * num / den)
      some (if negative then -size else size)
    else none
  | _ => none

end Binary64

end OpenApiClient.Decimal
