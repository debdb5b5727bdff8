/-!
# Decimal Digits

The decimal digits of every script (Unicode 14). Each script keeps its ten digits side by side, zero
first, so the table lists where each script begins.
-/

namespace OpenApiClient.Text

/-- The code points of the digits of value zero. -/
def digitOrigins : List Nat :=
  [48, 1632, 1776, 1984, 2406, 2534, 2662, 2790, 2918, 3046, 3174, 3302, 3430, 3558, 3664, 3792,
   3872, 4160, 4240, 6112, 6160, 6470, 6608, 6784, 6800, 6992, 7088, 7232, 7248, 42528, 43216,
   43264, 43472, 43504, 43600, 44016, 65296, 66720, 68912, 69734, 69872, 69942, 70096, 70384,
   70736, 70864, 71248, 71360, 71472, 71904, 72016, 72784, 73040, 73120, 92768, 92864, 93008,
   120782, 120792, 120802, 120812, 120822, 123200, 123632, 125264, 130032]

/-- The value of a decimal digit of any script, `none` for every other character. -/
def digitValue? (c : Char) : Option Nat :=
  (digitOrigins.find? fun origin => origin ≤ c.toNat && c.toNat < origin + 10).map (c.toNat - ·)

/-- Whether a character is one of the digits `0` to `9`. -/
def isPlainDigit (c : Char) : Bool :=
  '0' ≤ c && c ≤ '9'

/-- The value of one of the digits `0` to `9`. -/
def plainDigitValue (c : Char) : Nat :=
  c.toNat - '0'.toNat

/-- The number that a run of the digits `0` to `9` denotes. -/
def plainDigitsValue (digits : List Char) : Nat :=
  digits.foldl (fun value c => 10 * value + plainDigitValue c) 0

end OpenApiClient.Text
