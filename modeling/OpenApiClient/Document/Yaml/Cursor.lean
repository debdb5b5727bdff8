import OpenApiClient.Document.Yaml.Failure

/-!
# Cursor

A place in a YAML text, and the character classes that the tokens are made of. The end of the text
reads as the character `U+0000`, which no text contains. Line ends have been unified beforehand, so a
carriage return is never met.

A text may break off where its file cannot be read any further. Looking at a character beyond that
point fails, so what a scalar or a token looks at decides whether the failure counts; moving on to a
character includes looking at it.
-/

namespace OpenApiClient.Document.Yaml

/-! ## Character classes -/

/-- The character that stands for the end of the text. -/
def endMark : Char := '\x00'

/-- Whether a character ends a line. -/
def isBreak (c : Char) : Bool :=
  c == '\n' || c == '\x85' || c == '\u2028' || c == '\u2029'

/-- Whether a character ends a line or the text. -/
def isLineEnd (c : Char) : Bool :=
  c == endMark || isBreak c

/-- Whether a character is a space or ends a line or the text. -/
def isSpaceOrEnd (c : Char) : Bool :=
  c == ' ' || isLineEnd c

/-- Whether a character is a space or a tab or ends a line or the text. -/
def isGap (c : Char) : Bool :=
  c == '\t' || isSpaceOrEnd c

/-- Whether a character opens, closes or separates flow collections. -/
def isFlowIndicator (c : Char) : Bool :=
  c == ',' || c == '[' || c == ']' || c == '{' || c == '}'

/-- Whether a character may occur in the name of an anchor, a directive or a tag handle. -/
def isWordChar (c : Char) : Bool :=
  c.isAlphanum || c == '-' || c == '_'

/-! ## The cursor -/

/-- A place in the text: what is left to read, and how far, in which line and in which column the
place is. -/
structure Cursor where
  rest : List Char
  /-- Why the text cannot be read beyond `rest`, if it goes on there. -/
  ending : Option Failure
  index : Nat := 0
  line : Nat := 0
  column : Nat := 0

namespace Cursor

/-! ## Looking ahead -/

/-- The character `n` places ahead. -/
def peekAt (cursor : Cursor) (n : Nat) : Except Failure Char :=
  match cursor.rest[n]?, cursor.ending with
  | some c, _ => .ok c
  | none, none => .ok endMark
  | none, some failure => .error failure

/-- The character at the cursor. -/
def peek (cursor : Cursor) : Except Failure Char :=
  cursor.peekAt 0

/-- The next `n` characters, fewer at the end of the text. -/
def ahead (cursor : Cursor) (n : Nat) : Except Failure (List Char) :=
  let chars := cursor.rest.take n
  match cursor.ending with
  | some failure => if chars.length < n then .error failure else .ok chars
  | none => .ok chars

/-- Whether a gap stands `n` places ahead. -/
def isGapAt (cursor : Cursor) (n : Nat) : Except Failure Bool :=
  (cursor.peekAt n).map isGap

/-! ## Moving -/

/-- The place after one character. A byte order mark takes no column. -/
def pass (cursor : Cursor) : Cursor :=
  match cursor.rest with
  | [] => cursor
  | c :: rest =>
    if isBreak c then
      { cursor with rest, index := cursor.index + 1, line := cursor.line + 1, column := 0 }
    else if c == '\ufeff' then { cursor with rest, index := cursor.index + 1 }
    else { cursor with rest, index := cursor.index + 1, column := cursor.column + 1 }

/-- The place after `n` characters. -/
def passAll (cursor : Cursor) : Nat → Cursor
  | 0 => cursor
  | n + 1 => cursor.pass.passAll n

/-- The cursor after the next `n` characters. -/
def advance (cursor : Cursor) (n : Nat) : Except Failure Cursor :=
  (cursor.peekAt n).map fun _ => cursor.passAll n

/-- The cursor after the next character. -/
def next (cursor : Cursor) : Except Failure Cursor :=
  cursor.advance 1

/-! ## Runs -/

/-- The longest run of characters of a class, and the cursor after it. -/
def takeRun (cursor : Cursor) (belongs : Char → Bool) : Except Failure (List Char × Cursor) :=
  let run := cursor.rest.takeWhile belongs
  (cursor.advance run.length).map fun after => (run, after)

/-- The cursor after the longest run of characters of a class. -/
def skipRun (cursor : Cursor) (belongs : Char → Bool) : Except Failure Cursor :=
  (cursor.takeRun belongs).map (·.2)

/-- The cursor after the spaces at hand. -/
def skipSpaces (cursor : Cursor) : Except Failure Cursor :=
  cursor.skipRun (· == ' ')

/-- Takes a line end, if there is one: how it counts in a scalar, and the cursor after it. -/
def takeBreak? (cursor : Cursor) : Except Failure (Option (Char × Cursor)) := do
  let c ← cursor.peek
  if isBreak c then
    return some (if c == '\x85' then '\n' else c, ← cursor.next)
  else return none

/-- The cursor after a line end, if there is one. -/
def skipBreak (cursor : Cursor) : Except Failure Cursor :=
  cursor.takeBreak?.map fun taken => (taken.map (·.2)).getD cursor

/-- The cursor at the end of the line if a comment begins here. -/
def skipComment (cursor : Cursor) : Except Failure Cursor := do
  if (← cursor.peek) == '#' then cursor.skipRun (!isLineEnd ·) else return cursor

/-- Whether the start or the end of a document is marked here: by three equal marks and a gap. -/
def atSeparator (cursor : Cursor) (marks : List Char) : Except Failure Bool := do
  let chars ← cursor.ahead 3
  if marks.any fun mark => chars == [mark, mark, mark] then cursor.isGapAt 3 else return false

end Cursor

/-- The marks that documents begin and end with. -/
def separatorMarks : List Char := ['-', '.']

end OpenApiClient.Document.Yaml
