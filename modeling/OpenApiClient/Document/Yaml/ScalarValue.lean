import OpenApiClient.Decimal.Literal
import OpenApiClient.Document.Yaml.Failure
import OpenApiClient.Document.Yaml.Tag
import OpenApiClient.Document.Value
import OpenApiClient.Text.Base64
import OpenApiClient.Text.LowerCase

/-!
# Scalar Values

The value that a scalar denotes, given its tag. A tag can be written in front of any scalar, so every
reader here meets texts that do not look as its tag suggests.
-/

namespace OpenApiClient.Document.Yaml

open OpenApiClient.Decimal (Binary64 readBinary64)
open OpenApiClient.Text (readInteger)

/-! ## Numbers -/

/-- A number without the underscores in it, which do not count. -/
def withoutUnderscores (text : Text) : Text :=
  text.filter (· != '_')

/-- Splits an optional sign off: whether it is a minus, and what follows. -/
def splitSign : Text → Bool × Text
  | .char '-' :: rest => (true, rest)
  | .char '+' :: rest => (false, rest)
  | rest => (false, rest)

/-- A whole number in one base. -/
def integerIn (base : Nat) (text : Text) : Except Failure Int :=
  (readInteger base text).mapError fun e => .scalar (.integer base text e)

/-- A whole number of base sixty: every part is written in base ten. -/
def integerOfSixtieths (text : Text) : Except Failure Int := do
  let parts ← (text.splitOn (CodePoint.char ':')).mapM (integerIn 10)
  return parts.foldl (fun total part => total * 60 + part) 0

/-- An unsigned whole number; how it begins decides about its base. -/
def unsignedInteger (text : Text) : Except Failure Int :=
  match text with
  | [] => .error (.scalar .emptyNumber)
  | [.char '0'] => .ok 0
  | .char '0' :: .char 'b' :: digits => integerIn 2 digits
  | .char '0' :: .char 'x' :: digits => integerIn 16 digits
  | .char '0' :: _ => integerIn 8 text
  | _ => if text.contains ':' then integerOfSixtieths text else integerIn 10 text

/-- A whole number with an optional sign. -/
def integerValue (text : Text) : Except Failure Int :=
  let (negative, body) := splitSign (withoutUnderscores text)
  (unsignedInteger body).map fun n => if negative then -n else n

/-- A floating-point number in base ten. -/
def decimalValue (text : Text) : Except Failure Binary64 :=
  match readBinary64 text with
  | some x => .ok x
  | none => .error (.scalar (.float text))

/-- The place value of a part of a number of base sixty. -/
def placeValue (unit : Int) : Except Failure Binary64 :=
  match Binary64.ofInt unit with
  | .infinite _ => .error (.scalar .floatOverflow)
  | x => .ok x

/-- A floating-point number of base sixty: every part is rounded, scaled and added in turn, the last
one first. -/
def decimalOfSixtieths (text : Text) : Except Failure Binary64 := do
  let parts ← (text.splitOn (CodePoint.char ':')).mapM decimalValue
  let (total, _) ← parts.reverse.foldlM
    (fun (total, unit) part => do
      let place ← placeValue unit
      return (total.add (part.mul place), unit * 60))
    (Binary64.zero false, (1 : Int))
  return total

/-- The word for infinity, in lower case. -/
def infinityWord : Text := ".inf"

/-- The word for not-a-number, in lower case. -/
def nanWord : Text := ".nan"

/-- A floating-point number in lower case, without underscores, and its sign split off. -/
def floatParts (text : Text) : Bool × Text :=
  splitSign (Text.lower (withoutUnderscores text))

/-- An unsigned floating-point number in lower case. -/
def unsignedFloat (text : Text) : Except Failure Binary64 :=
  if text == infinityWord then .ok (.infinite false)
  else if text == nanWord then .ok .nan
  else if text.contains ':' then decimalOfSixtieths text
  else decimalValue text

/-- A floating-point number with an optional sign. -/
def floatValue (text : Text) : Except Failure Binary64 :=
  if (withoutUnderscores text).isEmpty then .error (.scalar .emptyNumber)
  else
    let (negative, body) := floatParts text
    (unsignedFloat body).map fun x => if negative then x.neg else x

/-! ## Other kinds -/

/-- A truth value. -/
def boolValue (text : Text) : Except Failure Bool :=
  let word := Text.lower text
  let isOneOf (words : List Text) : Bool := words.contains word
  if isOneOf ["yes", "true", "on"] then .ok true
  else if isOneOf ["no", "false", "off"] then .ok false
  else .error (.scalar (.truthValue word))

/-- Bytes written in base 64. -/
def bytesValue (text : Text) : Except Failure (List UInt8) :=
  match (text.chars?.filter fun cs => cs.all (·.toNat < 0x80)).bind Text.Base64.decode? with
  | some bytes => .ok bytes
  | none => .error .unconstructible

/-- A date, or a time on a day. A line end at the end does not count. -/
def timestampValue (text : Text) : Except Failure Value :=
  let asFailure (e : CalendarError) : Failure := .scalar (.calendar e)
  let look (cs : List Char) := if cs.getLast? == some '\n' then cs.dropLast else cs
  match text.chars?.bind fun cs => readTimestamp (look cs) with
  | none => .error (.scalar .notTimestamp)
  | some stamp =>
    match stamp.clock with
    | none => ((Date.of stamp.year stamp.month stamp.day).map Value.date).mapError asFailure
    | some clock => ((stamp.toDateTime clock).map Value.dateTime).mapError asFailure

/-! ## Any scalar -/

/-- The value of a scalar with the given tag. -/
def scalarValue (tag : String) (text : Text) : Except Failure Value :=
  if tag == textTag then .ok (.text text)
  else if tag == nullTag then .ok .null
  else if tag == boolTag then (boolValue text).map .bool
  else if tag == intTag then (integerValue text).map .int
  else if tag == floatTag then (floatValue text).map .float
  else if tag == binaryTag then (bytesValue text).map .bytes
  else if tag == timestampTag then timestampValue text
  else .error .unconstructible

end OpenApiClient.Document.Yaml
