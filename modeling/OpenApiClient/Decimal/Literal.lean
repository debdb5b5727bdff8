import OpenApiClient.Decimal.Binary64
import OpenApiClient.Text.Numeral

/-!
# Decimal Literals

Reading a decimal number from text: blanks around, a sign, digits with single underscores between
them, a point, an exponent; or one of the words for infinity and for not-a-number.
-/

namespace OpenApiClient.Decimal

open OpenApiClient.Text

/-! ## The parts of a number -/

/-- A decimal number as written: its digits before and after the point, and its power of ten. -/
structure Parts where
  negative : Bool
  whole : List Char
  fraction : List Char
  exponent : Int
  deriving DecidableEq, Repr

/-- The floating-point number nearest to a decimal number. -/
def Parts.toBinary64 (parts : Parts) : Binary64 :=
  .ofDecimal parts.negative (plainDigitsValue (parts.whole ++ parts.fraction))
    (parts.exponent - Int.ofNat parts.fraction.length)

/-! ## Reading -/

/-- Reads an exponent, which must make up the whole text. -/
def readExponent (cs : List Char) : Option Int :=
  let (negative, digits) := takeSign cs
  if digits.isEmpty || !digits.all isPlainDigit then none
  else
    let size := Int.ofNat (plainDigitsValue digits)
    some (if negative then -size else size)

/-- Whether every underscore stands between two digits. -/
def hasProperUnderscores : (afterDigit : Bool) → List Char → Bool
  | _, [] => true
  | afterDigit, '_' :: cs =>
    afterDigit && (cs.head?.any isPlainDigit) && hasProperUnderscores false cs
  | _, c :: cs => hasProperUnderscores (isPlainDigit c) cs

/-- Reads an unsigned number written with digits. -/
def readUnsigned (negative : Bool) (cs : List Char) : Option Binary64 :=
  let whole := cs.takeWhile isPlainDigit
  let afterWhole := cs.dropWhile isPlainDigit
  let (fraction, rest) :=
    match afterWhole with
    | '.' :: rest => (rest.takeWhile isPlainDigit, rest.dropWhile isPlainDigit)
    | rest => ([], rest)
  if whole.isEmpty && fraction.isEmpty then none
  else match rest with
    | [] => some (Parts.toBinary64 ⟨negative, whole, fraction, 0⟩)
    | mark :: rest =>
      if mark == 'e' || mark == 'E' then
        (readExponent rest).map fun exponent =>
          Parts.toBinary64 ⟨negative, whole, fraction, exponent⟩
      else none

/-- Reads a floating-point number. -/
def readBinary64 (text : Text) : Option Binary64 :=
  let (negative, body) := takeSign (trimBy isPlainBlank (text.map plainForm))
  let word := String.ofList (body.map Char.toLower)
  if word == "inf" || word == "infinity" then some (.infinite negative)
  else if word == "nan" then some .nan
  else if hasProperUnderscores false body then readUnsigned negative (body.filter (· != '_'))
  else none

end OpenApiClient.Decimal
