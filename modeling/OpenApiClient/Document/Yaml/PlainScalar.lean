import OpenApiClient.Document.Yaml.Cursor

/-!
# Plain Scalars

Scalars without quotes. A plain scalar may run over several lines: a single line end inside it
counts as a space, and of several line ends the first is dropped.
-/

namespace OpenApiClient.Document.Yaml

/-! ## Words -/

/-- The part of a plain scalar up to the next gap: a colon ends it before a gap, and in a flow
collection flow indicators and question marks end it as well. -/
def plainWord (inFlow : Bool) : List Char → List Char
  | [] => []
  | c :: cs =>
    let next := cs.headD endMark
    if isGap c || (c == ':' && (isGap next || (inFlow && isFlowIndicator next))) ||
        (inFlow && (isFlowIndicator c || c == '?')) then []
    else c :: plainWord inFlow cs

/-- The word of a plain scalar at the cursor. Telling that it ends takes a look at the character
after it, and at one more if that is a colon. -/
def wordAt (inFlow : Bool) (cursor : Cursor) : Except Failure (List Char) := do
  let word := plainWord inFlow cursor.rest
  if (← cursor.peekAt word.length) == ':' then
    let _ ← cursor.peekAt (word.length + 1)
  return word

/-! ## Gaps -/

/-- The line ends and spaces that follow the first line end inside a scalar: how they count, last
one first, and the cursor after them; `none` when a document separator follows. -/
def plainBreaks : (fuel : Nat) → (breaks : List Char) → Cursor →
    Except Failure (Option (List Char) × Cursor)
  | 0, breaks, cursor => .ok (some breaks, cursor)
  | fuel + 1, breaks, cursor => do
    if (← cursor.peek) == ' ' then plainBreaks fuel breaks (← cursor.next)
    else
      match ← cursor.takeBreak? with
      | none => return (some breaks, cursor)
      | some (c, after) =>
        if ← after.atSeparator separatorMarks then return (none, after)
        else plainBreaks fuel (c :: breaks) after

/-- The gap after a word of a plain scalar. -/
structure PlainGap where
  /-- How the gap counts if the scalar goes on; an empty gap ends the scalar. -/
  text : List Char
  crossesLine : Bool
  after : Cursor

/-- Reads the gap after a word of a plain scalar. -/
def plainGap (fuel : Nat) (cursor : Cursor) : Except Failure PlainGap := do
  let (spaces, afterSpaces) ← cursor.takeRun (· == ' ')
  match ← afterSpaces.takeBreak? with
  | none => return ⟨spaces, false, afterSpaces⟩
  | some (first, afterBreak) =>
    if ← afterBreak.atSeparator separatorMarks then return ⟨[], true, afterBreak⟩
    else
      match ← plainBreaks fuel [] afterBreak with
      | (none, after) => return ⟨[], true, after⟩
      | (some breaks, after) =>
        let head := if first != '\n' then [first] else if breaks.isEmpty then [' '] else []
        return ⟨head ++ breaks.reverse, true, after⟩

/-! ## Scalars -/

/-- A plain scalar: its text, whether it ends at the start of a line, and the cursor after it. -/
structure PlainScalar where
  text : List Char
  crossesLine : Bool
  after : Cursor

/-- Reads the words of a plain scalar. `done` is the text so far and `gap` the gap before the next
word; outside flow collections a scalar ends at a column before `indent`. -/
def plainWords (inFlow : Bool) (indent : Int) :
    (fuel : Nat) → (done : List Char) → (gap : PlainGap) → Except Failure PlainScalar
  | 0, done, gap => .ok ⟨done, gap.crossesLine, gap.after⟩
  | fuel + 1, done, gap => do
    let cursor := gap.after
    let ending : PlainScalar := ⟨done, gap.crossesLine, cursor⟩
    if (← cursor.peek) == '#' then return ending
    else
      let word ← wordAt inFlow cursor
      if word.isEmpty then return ending
      else
        let text := done ++ gap.text ++ word
        let gap ← plainGap fuel (← cursor.advance word.length)
        if gap.text.isEmpty || (← gap.after.peek) == '#' ||
            (!inFlow && Int.ofNat gap.after.column < indent) then
          return ⟨text, gap.crossesLine, gap.after⟩
        else plainWords inFlow indent fuel text gap

/-- Reads a plain scalar inside a collection that is indented by `indent` columns. -/
def readPlainScalar (fuel : Nat) (inFlow : Bool) (indent : Int) (cursor : Cursor) :
    Except Failure PlainScalar :=
  plainWords inFlow (indent + 1) fuel [] ⟨[], false, cursor⟩

/-- Whether a character has a meaning of its own at the start of a token. -/
def isIndicator (c : Char) : Bool :=
  ['-', '?', ':', ',', '[', ']', '{', '}', '#', '&', '*', '!', '|', '>', '\'', '"', '%', '@',
    '`'].contains c

/-- Whether a plain scalar may begin at the cursor. -/
def startsPlainScalar (inFlow : Bool) (cursor : Cursor) : Except Failure Bool := do
  let c ← cursor.peek
  if !isGap c && !isIndicator c then return true
  else
    let gapFollows ← cursor.isGapAt 1
    return !gapFollows && (c == '-' || (!inFlow && (c == '?' || c == ':')))

end OpenApiClient.Document.Yaml
