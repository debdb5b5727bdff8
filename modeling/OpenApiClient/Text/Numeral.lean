import OpenApiClient.Text.Blank
import OpenApiClient.Text.DecimalDigit
import OpenApiClient.Text.Quoted

/-!
# Numerals

Whole numbers as people type them: blanks around, a sign, digits of any script, single underscores
between digits. A numeral of base ten may have at most `digitLimit` digits.
-/

namespace OpenApiClient.Text

/-! ## Digits in a base -/

/-- The value of `0` to `9`, `a` to `f` and `A` to `F` as digits. -/
def hexDigitValue? (c : Char) : Option Nat :=
  if isPlainDigit c then some (plainDigitValue c)
  else if 'a' ≤ c && c ≤ 'f' then some (c.toNat - 'a'.toNat + 10)
  else if 'A' ≤ c && c ≤ 'F' then some (c.toNat - 'A'.toNat + 10)
  else none

/-- Whether a character is a digit of the base. -/
def isDigitIn (base : Nat) (c : Char) : Bool :=
  match hexDigitValue? c with
  | some value => value < base
  | none => false

/-- The number that a run of digits denotes in a base. -/
def digitsValue (base : Nat) (digits : List Char) : Nat :=
  digits.foldl (fun value c => base * value + (hexDigitValue? c).getD 0) 0

/-! ## Reading -/

/-- Why a text is not a numeral. -/
inductive NumeralError where
  /-- The text has another shape. -/
  | malformed
  /-- The text has more digits than a numeral may have. -/
  | tooManyDigits (count : Nat)
  deriving DecidableEq, Repr

/-- The explanation of an error, given the base and the text that was read. -/
def NumeralError.message (base : Nat) (text : Text) : NumeralError → String
  | .malformed =>
    "invalid literal for int() with base " ++ toString base ++ ": " ++
      String.ofList ((quoted text).toList.take 200)
  | .tooManyDigits count =>
    "Exceeds the limit (4300 digits) for integer string conversion: value has " ++
      toString count ++ " digits; use sys.set_int_max_str_digits() to increase the limit"

/-- The most digits that a numeral of base ten may have. -/
def digitLimit : Nat := 4300

/-- Digits of other scripts as plain digits, typographic blanks as plain spaces. -/
def plainChar (c : Char) : Char :=
  if c.toNat < 0x7F then c
  else if isBlank c then ' '
  else match digitValue? c with
    | some value => Char.ofNat ('0'.toNat + value)
    | none => c

/-- The plain form of a code point; a surrogate has none and counts as a mark of no meaning. -/
def plainForm : CodePoint → Char
  | .char c => plainChar c
  | .surrogate _ => '?'

/-- The blanks that may stand around a numeral in plain form. -/
def isPlainBlank (c : Char) : Bool :=
  (0x09 ≤ c.toNat && c.toNat ≤ 0x0D) || c == ' '

/-- Takes an optional sign: whether it is a minus, and what follows. -/
def takeSign : List Char → Bool × List Char
  | '-' :: cs => (true, cs)
  | '+' :: cs => (false, cs)
  | cs => (false, cs)

/-- Drops the mark of a base (`0b`, `0o`, `0x`) and one underscore after it. -/
def dropBaseMark (base : Nat) (cs : List Char) : List Char :=
  let afterMark (lower upper : Char) : List Char :=
    match cs with
    | '0' :: mark :: rest =>
      if mark == lower || mark == upper then
        match rest with
        | '_' :: digits => digits
        | digits => digits
      else cs
    | _ => cs
  match base with
  | 2 => afterMark 'b' 'B'
  | 8 => afterMark 'o' 'O'
  | 16 => afterMark 'x' 'X'
  | _ => cs

/-- Reads the digits of a numeral, which must make up the whole text. -/
def readDigits (base : Nat) (cs : List Char) : Except NumeralError Nat :=
  let belongs := fun c => c == '_' || isDigitIn base c
  let groups := (cs.takeWhile belongs).splitOn '_'
  let digits := groups.flatten
  if groups.any List.isEmpty then .error .malformed
  else if base == 10 && digitLimit < digits.length then
    .error (.tooManyDigits digits.length)
  else if (cs.dropWhile belongs).isEmpty then .ok (digitsValue base digits)
  else .error .malformed

/-- Reads a whole number in a base: blanks, a sign, digits. -/
def readInteger (base : Nat) (text : Text) : Except NumeralError Int :=
  let (negative, body) := takeSign (trimBy isPlainBlank (text.map plainForm))
  match readDigits base (dropBaseMark base body) with
  | .ok n => .ok (if negative then -(n : Int) else n)
  | .error e => .error e

/-! ## Writing -/

/-- The digits of a whole number in base ten; a number of more than `digitLimit` digits has none. -/
def writeInteger? (n : Int) : Option String :=
  if n.natAbs < Nat.pow 10 digitLimit then some (toString n) else none

/-- The explanation for a number that is too long to be written. -/
def unwritableMessage : String :=
  "Exceeds the limit (4300 digits) for integer string conversion; " ++
    "use sys.set_int_max_str_digits() to increase the limit"

end OpenApiClient.Text
