import OpenApiClient.Decimal.Shortest

/-!
# Decimal Notation

Laying out the shortest digits of a number as text. Which numbers are written with a plain decimal
point and which with a power of ten is a decision of the format that writes them.
-/

namespace OpenApiClient.Decimal

/-- A format: the leading exponents that are written positionally, the least number of digits of a
written exponent, and the texts of the values that have no digits. -/
structure Layout where
  firstPositional : Int
  lastPositional : Int
  exponentDigits : Nat
  infinityText : String
  nanText : String

namespace Layout

/-- Digits with a decimal point after the first `point` of them; at least one digit stands on each
side. -/
def positional (decimal : Digits) : List Char :=
  if decimal.point ≤ 0 then
    '0' :: '.' :: List.replicate (-decimal.point).toNat '0' ++ decimal.digits
  else
    let whole := decimal.point.toNat
    let digits := decimal.digits ++ List.replicate (whole - decimal.digits.length) '0'
    match digits.drop whole with
    | [] => digits ++ ['.', '0']
    | fraction => digits.take whole ++ '.' :: fraction

/-- Digits as `d.ddde±xx`. -/
def scientific (layout : Layout) (decimal : Digits) : List Char :=
  let exponent := decimal.point - 1
  let size := Nat.toDigits 10 exponent.natAbs
  let mantissa :=
    match decimal.digits with
    | [] => ['0']
    | [digit] => [digit]
    | digit :: digits => digit :: '.' :: digits
  mantissa ++ 'e' :: (if exponent < 0 then '-' else '+') ::
    List.replicate (layout.exponentDigits - size.length) '0' ++ size

/-- The text of the number without its sign. -/
def magnitude (layout : Layout) : Binary64 → List Char
  | .nan => layout.nanText.toList
  | .infinite _ => layout.infinityText.toList
  | .finite _ significand exponent =>
    if significand == 0 then ['0', '.', '0']
    else
      let decimal := shortestDigits significand exponent
      if layout.firstPositional < decimal.point && decimal.point ≤ layout.lastPositional + 1 then
        positional decimal
      else layout.scientific decimal

/-- The text of a number. -/
def render (layout : Layout) (number : Binary64) : String :=
  String.ofList
    ((if number.isNegative then ['-'] else []) ++ layout.magnitude number)

end Layout

end OpenApiClient.Decimal
