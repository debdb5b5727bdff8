import OpenApiClient.Decimal.Literal
import OpenApiClient.Document.Value

/-!
# JSON Documents

Reading a JSON text. Beyond the standard, the words `NaN`, `Infinity` and `-Infinity` are numbers.
A number with a fraction or an exponent is a floating-point number, any other a whole number of at
most `digitLimit` digits. A repeated key keeps its place and takes the last value.

## Layers

- Faults and their wording
- The cursor, blanks, strings, numbers
- Values, by recursion on a bound for the work left
-/

namespace OpenApiClient.Document.Json

open OpenApiClient.Decimal
open OpenApiClient.Text

/-! ## Faults -/

/-- What a text fails to be. -/
inductive FaultKind where
  | byteOrderMark
  | expectedValue
  | expectedKey
  | expectedColon
  | expectedComma
  | unterminatedString
  | controlCharacter
  | invalidEscape
  | invalidUnicodeEscape
  | extraData
  deriving DecidableEq, Repr

/-- A fault at a place, counted in characters from the start. -/
structure Fault where
  kind : FaultKind
  position : Nat
  deriving DecidableEq, Repr

/-- Why no document could be read. -/
inductive ReadError where
  | fault (fault : Fault)
  | numeral (error : NumeralError) (literal : Text)
  deriving DecidableEq, Repr

/-- The wording of a fault, without its place. -/
def FaultKind.message : FaultKind → String
  | .byteOrderMark => "Unexpected UTF-8 BOM (decode using utf-8-sig)"
  | .expectedValue => "Expecting value"
  | .expectedKey => "Expecting property name enclosed in double quotes"
  | .expectedColon => "Expecting ':' delimiter"
  | .expectedComma => "Expecting ',' delimiter"
  | .unterminatedString => "Unterminated string starting at"
  | .controlCharacter => "Invalid control character at"
  | .invalidEscape => "Invalid \\escape"
  | .invalidUnicodeEscape => "Invalid \\uXXXX escape"
  | .extraData => "Extra data"

/-- The wording of a fault in a text: what it is, and its line, column and place. -/
def Fault.message (cs : List Char) (fault : Fault) : String :=
  let before := cs.take fault.position
  let line := before.count '\n' + 1
  let column := (before.reverse.takeWhile (· != '\n')).length + 1
  fault.kind.message ++ ": line " ++ toString line ++ " column " ++ toString column ++
    " (char " ++ toString fault.position ++ ")"

/-! ## The cursor -/

/-- What is left to read, and its place in the text. -/
structure Cursor where
  rest : List Char
  position : Nat

/-- The result of reading a part of the text. -/
abbrev Reading (α : Type) := Except ReadError (α × Cursor)

/-- Fails at the place of a cursor. -/
def Cursor.fail {α : Type} (cursor : Cursor) (kind : FaultKind) : Except ReadError α :=
  .error (.fault ⟨kind, cursor.position⟩)

/-- The cursor `count` characters further on. -/
def Cursor.advance (cursor : Cursor) (count : Nat) : Cursor :=
  ⟨cursor.rest.drop count, cursor.position + count⟩

/-- The characters that may stand between the parts of a text. -/
def isSpace (c : Char) : Bool :=
  c == ' ' || c == '\t' || c == '\n' || c == '\r'

/-- The cursor after the spaces at hand. -/
def Cursor.skipSpace (cursor : Cursor) : Cursor :=
  cursor.advance (cursor.rest.takeWhile isSpace).length

/-! ## Strings -/

/-- The character that a one-letter escape denotes. -/
def escapedChar? (c : Char) : Option Char :=
  match c with
  | '"' => some '"'
  | '\\' => some '\\'
  | '/' => some '/'
  | 'b' => some '\x08'
  | 'f' => some '\x0c'
  | 'n' => some '\n'
  | 'r' => some '\r'
  | 't' => some '\t'
  | _ => none

/-- The number that four hexadecimal digits denote. -/
def readHex4 (cs : List Char) : Option Nat :=
  let digits := cs.take 4
  if digits.length == 4 && digits.all (isDigitIn 16) then some (digitsValue 16 digits) else none

/-- Whether a code unit opens a pair that denotes one character. -/
def isHighSurrogate (code : Nat) : Bool := 0xD800 ≤ code && code ≤ 0xDBFF

/-- Whether a code unit closes a pair that denotes one character. -/
def isLowSurrogate (code : Nat) : Bool := 0xDC00 ≤ code && code ≤ 0xDFFF

/-- Reads the escape `\uXXXX`, or two of them that form a pair. The cursor stands behind the `u`; a
closing quote must still follow the digits. Gives the code point and the length read. -/
def readUnicodeEscape (cursor : Cursor) : Except ReadError (Nat × Nat) :=
  let malformed (offset : Nat) : Except ReadError (Nat × Nat) :=
    .error (.fault ⟨.invalidUnicodeEscape, cursor.position + offset - 1⟩)
  if (cursor.rest.drop 4).isEmpty then malformed 0
  else match readHex4 cursor.rest with
    | none => malformed 0
    | some high =>
      match cursor.rest.drop 4 with
      | '\\' :: 'u' :: digits =>
        if isHighSurrogate high && !(digits.drop 4).isEmpty then
          match readHex4 digits with
          | none => malformed 6
          | some low =>
            if isLowSurrogate low then
              .ok (0x10000 + (high - 0xD800) * 0x400 + (low - 0xDC00), 10)
            else .ok (high, 4)
        else .ok (high, 4)
      | _ => .ok (high, 4)

/-- Reads the rest of a string whose opening quote stands at `start`. `points` holds the code
points so far, last one first; `fuel` bounds the characters to read. -/
def readStringFrom (start : Nat) : (fuel : Nat) → (points : Text) → Cursor → Reading Text
  | 0, _, _ => .error (.fault ⟨.unterminatedString, start⟩)
  | fuel + 1, points, cursor =>
    match cursor.rest with
    | [] => .error (.fault ⟨.unterminatedString, start⟩)
    | '"' :: _ => .ok (points.reverse, cursor.advance 1)
    | ['\\'] => .error (.fault ⟨.unterminatedString, start⟩)
    | '\\' :: 'u' :: _ =>
      match readUnicodeEscape (cursor.advance 2) with
      | .error e => .error e
      | .ok (code, length) =>
        readStringFrom start fuel (.ofNat code :: points) (cursor.advance (2 + length))
    | '\\' :: c :: _ =>
      match escapedChar? c with
      | some denoted => readStringFrom start fuel (denoted :: points) (cursor.advance 2)
      | none => cursor.fail .invalidEscape
    | c :: _ =>
      if c.toNat ≤ 0x1F then cursor.fail .controlCharacter
      else readStringFrom start fuel (c :: points) (cursor.advance 1)

/-- Reads a string; the cursor stands on its opening quote. -/
def readString (cursor : Cursor) : Reading Value :=
  match readStringFrom cursor.position cursor.rest.length [] (cursor.advance 1) with
  | .ok (points, after) => .ok (.text points, after)
  | .error e => .error e

/-! ## Numbers -/

/-- The length of a fraction at the start of a text: a point and at least one digit. -/
def fractionLength : List Char → Nat
  | '.' :: rest =>
    let digits := (rest.takeWhile isPlainDigit).length
    if digits == 0 then 0 else digits + 1
  | _ => 0

/-- The length of an exponent at the start of a text: a mark, perhaps a sign, at least one digit. -/
def exponentLength : List Char → Nat
  | mark :: rest =>
    if mark == 'e' || mark == 'E' then
      let sign := match rest with
        | '+' :: _ | '-' :: _ => 1
        | _ => 0
      let digits := ((rest.drop sign).takeWhile isPlainDigit).length
      if digits == 0 then 0 else 1 + sign + digits
    else 0
  | [] => 0

/-- Reads a number. -/
def readNumber (cursor : Cursor) : Reading Value :=
  let (negative, unsigned) := match cursor.rest with
    | '-' :: rest => (true, rest)
    | rest => (false, rest)
  let whole := match unsigned with
    | '0' :: _ => ['0']
    | rest => rest.takeWhile isPlainDigit
  if whole.isEmpty then cursor.fail .expectedValue
  else
    let afterWhole := unsigned.drop whole.length
    let fraction := afterWhole.take (fractionLength afterWhole)
    let afterFraction := afterWhole.drop fraction.length
    let exponent := afterFraction.take (exponentLength afterFraction)
    let length := (if negative then 1 else 0) + whole.length + fraction.length + exponent.length
    let after := cursor.advance length
    if fraction.isEmpty && exponent.isEmpty then
      if digitLimit < whole.length then
        .error (.numeral (.tooManyDigits whole.length) (.ofChars (cursor.rest.take length)))
      else
        let size := Int.ofNat (plainDigitsValue whole)
        .ok (.int (if negative then -size else size), after)
    else
      let parts : Parts :=
        ⟨negative, whole, fraction.drop 1, (readExponent (exponent.drop 1)).getD 0⟩
      .ok (.float parts.toBinary64, after)

/-- Reads a word or a number. -/
def readScalar (cursor : Cursor) : Reading Value :=
  let words : List (String × Value) :=
    [("null", .null), ("true", .bool true), ("false", .bool false), ("NaN", .float .nan),
     ("Infinity", .float (.infinite false)), ("-Infinity", .float (.infinite true))]
  match words.find? fun word => word.1.toList.isPrefixOf cursor.rest with
  | some (word, value) => .ok (value, cursor.advance word.length)
  | none => readNumber cursor

/-! ## Values -/

mutual

/-- Reads one value. `fuel` bounds the steps: two for each character that is left, and one more. -/
def readValue : (fuel : Nat) → Cursor → Reading Value
  | 0, cursor => cursor.fail .expectedValue
  | fuel + 1, cursor =>
    match cursor.rest with
    | '"' :: _ => readString cursor
    | '[' :: _ =>
      let inside := (cursor.advance 1).skipSpace
      match inside.rest with
      | ']' :: _ => .ok (.list [], inside.advance 1)
      | _ =>
        match readItems fuel [] inside with
        | .ok (items, after) => .ok (.list items, after)
        | .error e => .error e
    | '{' :: _ =>
      let inside := (cursor.advance 1).skipSpace
      match inside.rest with
      | '}' :: _ => .ok (.map [], inside.advance 1)
      | _ =>
        match readMembers fuel [] inside with
        | .ok (entries, after) => .ok (.map (Value.putAll Value.sameKey entries), after)
        | .error e => .error e
    | _ => readScalar cursor
termination_by structural fuel => fuel

/-- Reads the items of a list up to its closing bracket; `items` holds those so far, last one
first. -/
def readItems : (fuel : Nat) → (items : List Value) → Cursor → Reading (List Value)
  | 0, _, cursor => cursor.fail .expectedValue
  | fuel + 1, items, cursor =>
    match readValue fuel cursor with
    | .error e => .error e
    | .ok (item, after) =>
      let after := after.skipSpace
      match after.rest with
      | ']' :: _ => .ok ((item :: items).reverse, after.advance 1)
      | ',' :: _ => readItems fuel (item :: items) (after.advance 1).skipSpace
      | _ => after.fail .expectedComma
termination_by structural fuel => fuel

/-- Reads the members of a mapping up to its closing brace; `entries` holds those so far, last one
first. -/
def readMembers : (fuel : Nat) → (entries : List (Value × Value)) → Cursor →
    Reading (List (Value × Value))
  | 0, _, cursor => cursor.fail .expectedKey
  | fuel + 1, entries, cursor =>
    match cursor.rest with
    | '"' :: _ =>
      match readString cursor with
      | .error e => .error e
      | .ok (key, after) =>
        let after := after.skipSpace
        match after.rest with
        | ':' :: _ =>
          match readValue fuel (after.advance 1).skipSpace with
          | .error e => .error e
          | .ok (value, after) =>
            let after := after.skipSpace
            match after.rest with
            | '}' :: _ => .ok (((key, value) :: entries).reverse, after.advance 1)
            | ',' :: _ => readMembers fuel ((key, value) :: entries) (after.advance 1).skipSpace
            | _ => after.fail .expectedComma
        | _ => after.fail .expectedColon
    | _ => cursor.fail .expectedKey
termination_by structural fuel => fuel

end

/-- Reads a JSON text. -/
def read (cs : List Char) : Except ReadError Value :=
  match cs with
  | '\ufeff' :: _ => .error (.fault ⟨.byteOrderMark, 0⟩)
  | _ =>
    let start : Cursor := Cursor.skipSpace ⟨cs, 0⟩
    match readValue (2 * cs.length + 1) start with
    | .error e => .error e
    | .ok (value, after) =>
      let after := after.skipSpace
      if after.rest.isEmpty then .ok value else after.fail .extraData

end OpenApiClient.Document.Json
