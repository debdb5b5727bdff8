import OpenApiClient.Document.Yaml.Cursor

/-!
# Quoted Scalars

Scalars between single or double quotes. Between single quotes a quote is written twice; between
double quotes a backslash escapes. Line ends fold as in plain scalars, unless they are escaped.
-/

namespace OpenApiClient.Document.Yaml

open OpenApiClient.Text (isDigitIn digitsValue)

/-! ## Escapes -/

/-- The character of a one-letter escape. -/
def letterEscape? (c : Char) : Option Char :=
  match c with
  | '0' => some '\x00'
  | 'a' => some '\x07'
  | 'b' => some '\x08'
  | 't' => some '\t'
  | '\t' => some '\t'
  | 'n' => some '\n'
  | 'v' => some '\x0b'
  | 'f' => some '\x0c'
  | 'r' => some '\r'
  | 'e' => some '\x1b'
  | ' ' => some ' '
  | '"' => some '"'
  | '\\' => some '\\'
  | '/' => some '/'
  | 'N' => some '\x85'
  | '_' => some '\xa0'
  | 'L' => some '\u2028'
  | 'P' => some '\u2029'
  | _ => none

/-- The number of hexadecimal digits that a numeric escape takes. -/
def escapeLength? (c : Char) : Option Nat :=
  match c with
  | 'x' => some 2
  | 'u' => some 4
  | 'U' => some 8
  | _ => none

/-- Takes hexadecimal digits, `count` of them, one after the other. -/
def takeHexDigits (cursor : Cursor) (count : Nat) : Except Failure (List Char) :=
  (List.range count).mapM fun n => do
    let c ← cursor.peekAt n
    if isDigitIn 16 c then return c else throw .malformed

/-- The code point that an escape names by its number. -/
def escapedPoint (code : Nat) : Except Failure CodePoint :=
  if code ≤ 0x10FFFF then .ok (.ofNat code)
  else .error (.scalar (if code < 0x80000000 then .codePoint else .codePointSize))

/-- Reads the `count` hexadecimal digits of a numeric escape. -/
def readNumericEscape (count : Nat) (cursor : Cursor) : Except Failure (CodePoint × Cursor) := do
  let digits ← takeHexDigits cursor count
  let point ← escapedPoint (digitsValue 16 digits)
  return (point, ← cursor.advance count)

/-! ## Gaps -/

/-- Whether a character is a space or a tab. -/
def isSpaceOrTab (c : Char) : Bool :=
  c == ' ' || c == '\t'

/-- Reads the line ends inside a quoted scalar, with the spaces around them; `breaks` holds how the
line ends so far count, last one first. A document separator may not stand inside a scalar. -/
def quotedBreaks : (fuel : Nat) → (breaks : List Char) → Cursor →
    Except Failure (List Char × Cursor)
  | 0, breaks, cursor => .ok (breaks.reverse, cursor)
  | fuel + 1, breaks, cursor => do
    if ← cursor.atSeparator separatorMarks then throw .malformed
    else
      let cursor ← cursor.skipRun isSpaceOrTab
      match ← cursor.takeBreak? with
      | some (c, after) => quotedBreaks fuel (c :: breaks) after
      | none => return (breaks.reverse, cursor)

/-- Reads a gap inside a quoted scalar: how it counts, and the cursor after it. -/
def quotedGap (fuel : Nat) (cursor : Cursor) : Except Failure (Text × Cursor) := do
  let (spaces, afterSpaces) ← cursor.takeRun isSpaceOrTab
  if (← afterSpaces.peek) == endMark then throw .malformed
  else
    match ← afterSpaces.takeBreak? with
    | none => return (.ofChars spaces, afterSpaces)
    | some (first, afterBreak) =>
      let (breaks, after) ← quotedBreaks fuel [] afterBreak
      let head := if first != '\n' then [first] else if breaks.isEmpty then [' '] else []
      return (.ofChars (head ++ breaks), after)

/-! ## Scalars -/

/-- Reads what a backslash begins; the cursor stands behind it. -/
def readEscape (fuel : Nat) (cursor : Cursor) : Except Failure (Text × Cursor) := do
  let letter ← cursor.peek
  match letterEscape? letter, escapeLength? letter with
  | some c, _ => return ([.char c], ← cursor.next)
  | none, some count =>
    let (point, after) ← readNumericEscape count (← cursor.next)
    return ([point], after)
  | none, none =>
    match ← cursor.takeBreak? with
    | none => throw .malformed
    | some (_, afterBreak) =>
      let (breaks, after) ← quotedBreaks fuel [] afterBreak
      return (.ofChars breaks, after)

/-- Reads the content of a quoted scalar up to its closing quote; `done` holds the text so far, last
code point first. -/
def quotedContent (double : Bool) : (fuel : Nat) → (done : Text) → Cursor →
    Except Failure (Text × Cursor)
  | 0, _, _ => .error .malformed
  | fuel + 1, done, cursor => do
    let c ← cursor.peek
    if double && c == '"' then return (done.reverse, ← cursor.next)
    else if !double && c == '\'' then
      if (← cursor.peekAt 1) == '\'' then
        quotedContent double fuel (c :: done) (← cursor.advance 2)
      else return (done.reverse, ← cursor.next)
    else if double && c == '\\' then
      let (text, after) ← readEscape fuel (← cursor.next)
      quotedContent double fuel (text.reverse ++ done) after
    else if isGap c then
      let (gap, after) ← quotedGap fuel cursor
      quotedContent double fuel (gap.reverse ++ done) after
    else quotedContent double fuel (c :: done) (← cursor.next)

/-- Reads a quoted scalar; the cursor stands on the opening quote. -/
def readQuotedScalar (fuel : Nat) (cursor : Cursor) : Except Failure (Text × Cursor) := do
  quotedContent ((← cursor.peek) == '"') fuel [] (← cursor.next)

end OpenApiClient.Document.Yaml
