import OpenApiClient.Document.Yaml.Cursor

/-!
# Block Scalars

Literal scalars (`|`), which keep their line ends, and folded ones (`>`), in which a line end between
two lines of text counts as a space. A header may fix the indentation and how the line ends at the
end of the scalar are treated.
-/

namespace OpenApiClient.Document.Yaml

open OpenApiClient.Text (isPlainDigit plainDigitValue)

/-! ## Headers -/

/-- What happens to the line ends after the last line of text. -/
inductive Chomping where
  /-- One line end is kept. -/
  | clip
  /-- All line ends are kept. -/
  | keep
  /-- No line end is kept. -/
  | strip
  deriving DecidableEq, Repr

/-- The header of a block scalar. -/
structure BlockHeader where
  chomping : Chomping
  increment : Option Nat

/-- Takes the mark for the treatment of the line ends at the end. -/
def takeChomping? (cursor : Cursor) : Except Failure (Option (Chomping × Cursor)) := do
  let c ← cursor.peek
  if c == '+' then return some (.keep, ← cursor.next)
  else if c == '-' then return some (.strip, ← cursor.next)
  else return none

/-- Takes the digit that fixes the indentation; it is never zero. -/
def takeIncrement? (cursor : Cursor) : Except Failure (Option (Nat × Cursor)) := do
  let c ← cursor.peek
  if c == '0' then throw .malformed
  else if isPlainDigit c then return some (plainDigitValue c, ← cursor.next)
  else return none

/-- Reads the two marks of a header in either order; both may be absent. -/
def readIndicators (cursor : Cursor) : Except Failure (BlockHeader × Cursor) := do
  match ← takeChomping? cursor with
  | some (chomping, after) =>
    match ← takeIncrement? after with
    | none => return (⟨chomping, none⟩, after)
    | some (increment, after) => return (⟨chomping, some increment⟩, after)
  | none =>
    match ← takeIncrement? cursor with
    | none => return (⟨.clip, none⟩, cursor)
    | some (increment, after) =>
      match ← takeChomping? after with
      | some (chomping, after) => return (⟨chomping, some increment⟩, after)
      | none => return (⟨.clip, some increment⟩, after)

/-- The cursor at the start of the next line; only spaces and a comment may stand before. -/
def skipRestOfLine (cursor : Cursor) : Except Failure Cursor := do
  let cursor ← (← cursor.skipSpaces).skipComment
  if isLineEnd (← cursor.peek) then cursor.skipBreak else throw .malformed

/-! ## Indentation -/

/-- The empty lines before the first line of text: their line ends, last one first, the deepest
column among them and that line, and the cursor. -/
def leadingBreaks : (fuel : Nat) → (breaks : List Char) → (deepest : Nat) → Cursor →
    Except Failure (List Char × Nat × Cursor)
  | 0, breaks, deepest, cursor => .ok (breaks, deepest, cursor)
  | fuel + 1, breaks, deepest, cursor => do
    if (← cursor.peek) == ' ' then
      let after ← cursor.next
      leadingBreaks fuel breaks (max deepest after.column) after
    else
      match ← cursor.takeBreak? with
      | some (c, after) => leadingBreaks fuel (c :: breaks) deepest after
      | none => return (breaks, deepest, cursor)

/-- The cursor after spaces up to column `indent`. -/
def skipIndent (indent : Nat) : (fuel : Nat) → Cursor → Except Failure Cursor
  | 0, cursor => .ok cursor
  | fuel + 1, cursor => do
    if cursor.column < indent && (← cursor.peek) == ' ' then
      skipIndent indent fuel (← cursor.next)
    else return cursor

/-- The empty lines before the next line of text: their line ends, last one first, and the
cursor. -/
def emptyLines (indent : Nat) : (fuel : Nat) → (breaks : List Char) → Cursor →
    Except Failure (List Char × Cursor)
  | 0, breaks, cursor => .ok (breaks, cursor)
  | fuel + 1, breaks, cursor => do
    let cursor ← skipIndent indent indent cursor
    match ← cursor.takeBreak? with
    | some (c, after) => emptyLines indent fuel (c :: breaks) after
    | none => return (breaks, cursor)

/-! ## Lines -/

/-- The text of a block scalar so far: its characters, last one first, the line end after the last
line of text, and the line ends of the empty lines after that, last one first. -/
structure BlockText where
  done : List Char
  lineEnd : List Char
  breaks : List Char

/-- Whether a line of text is at hand, indented as the scalar is. -/
def startsLine (indent : Nat) (cursor : Cursor) : Except Failure Bool := do
  return cursor.column == indent && (← cursor.peek) != endMark

/-- Whether a line at hand begins with a space or a tab. -/
def startsWithSpace (cursor : Cursor) : Except Failure Bool := do
  let c ← cursor.peek
  return c == ' ' || c == '\t'

/-- Reads the lines of a block scalar. -/
def blockLines (folded : Bool) (indent : Nat) : (fuel : Nat) → BlockText → Cursor →
    Except Failure (BlockText × Cursor)
  | 0, text, cursor => .ok (text, cursor)
  | fuel + 1, text, cursor => do
    let spaced ← startsWithSpace cursor
    let (line, afterLine) ← cursor.takeRun (!isLineEnd ·)
    let done := line.reverse ++ text.breaks ++ text.done
    let taken ← afterLine.takeBreak?
    let lineEnd := (taken.map fun taken => [taken.1]).getD []
    let (breaks, after) ← emptyLines indent fuel [] ((taken.map (·.2)).getD afterLine)
    if ← startsLine indent after then
      let folds := folded && lineEnd == ['\n'] && !spaced && !(← startsWithSpace after)
      let joint := if folds then (if breaks.isEmpty then [' '] else []) else lineEnd
      blockLines folded indent fuel ⟨joint ++ done, lineEnd, breaks⟩ after
    else return (⟨done, lineEnd, breaks⟩, after)

/-- Reads a block scalar inside a collection that is indented by `parent` columns; the cursor stands
on its mark. -/
def readBlockScalar (fuel : Nat) (folded : Bool) (parent : Int) (cursor : Cursor) :
    Except Failure (List Char × Cursor) := do
  let (header, afterHeader) ← readIndicators (← cursor.next)
  if !isSpaceOrEnd (← afterHeader.peek) then throw .malformed
  let content ← skipRestOfLine afterHeader
  let least := (max (parent + 1) 1).toNat
  let (indent, breaks, start) ←
    match header.increment with
    | none => do
      let (breaks, deepest, start) ← leadingBreaks fuel [] 0 content
      pure (max least deepest, breaks, start)
    | some increment => do
      let indent := least + increment - 1
      let (breaks, start) ← emptyLines indent fuel [] content
      pure (indent, breaks, start)
  let opening : BlockText := ⟨[], [], breaks⟩
  let (text, after) ←
    if ← startsLine indent start then blockLines folded indent fuel opening start
    else pure (opening, start)
  let tail :=
    match header.chomping with
    | .strip => []
    | .clip => text.lineEnd
    | .keep => text.breaks ++ text.lineEnd
  return ((tail ++ text.done).reverse, after)

end OpenApiClient.Document.Yaml
