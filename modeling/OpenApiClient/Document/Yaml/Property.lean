import OpenApiClient.Document.Yaml.QuotedScalar
import OpenApiClient.Document.Yaml.Token

/-!
# Node Properties and Directives

Reading anchors, aliases, tags and directives.
-/

namespace OpenApiClient.Document.Yaml

open OpenApiClient.Text (isPlainDigit digitsValue)

/-! ## Anchors and aliases -/

/-- Whether a character may follow the name of an anchor or an alias. -/
def endsAnchor (c : Char) : Bool :=
  isGap c || ['?', ':', ',', ']', '}', '%', '@', '`'].contains c

/-- Reads the name of an anchor or an alias; the cursor stands on its mark. -/
def readAnchorName (cursor : Cursor) : Except Failure (String × Cursor) := do
  let (name, after) ← (← cursor.next).takeRun isWordChar
  if name.isEmpty then throw .malformed
  else if endsAnchor (← after.peek) then return (String.ofList name, after)
  else throw .malformed

/-! ## Tags -/

/-- Whether a character may occur in a tag. -/
def isTagChar (c : Char) : Bool :=
  c.isAlphanum || ['-', ';', '/', '?', ':', '@', '&', '=', '+', '$', ',', '_', '.', '!', '~', '*',
    '\'', '(', ')', '[', ']', '%'].contains c

/-- Reads consecutive escapes of two hexadecimal digits each; `octets` holds the bytes so far, last
one first. -/
def readTagEscapes : (fuel : Nat) → (octets : List UInt8) → Cursor →
    Except Failure (List UInt8 × Cursor)
  | 0, octets, cursor => .ok (octets.reverse, cursor)
  | fuel + 1, octets, cursor => do
    if (← cursor.peek) == '%' then
      let after ← cursor.next
      let digits ← takeHexDigits after 2
      readTagEscapes fuel (UInt8.ofNat (digitsValue 16 digits) :: octets) (← after.advance 2)
    else return (octets.reverse, cursor)

/-- Reads the characters of a tag; `done` holds those so far. -/
def readTagText : (fuel : Nat) → (done : List Char) → Cursor → Except Failure (List Char × Cursor)
  | 0, done, cursor => .ok (done, cursor)
  | fuel + 1, done, cursor => do
    let (run, after) ← cursor.takeRun fun c => isTagChar c && c != '%'
    if (← after.peek) == '%' then
      let (octets, after) ← readTagEscapes fuel [] after
      match Text.Utf8.decode octets with
      | .error _ => throw .malformed
      | .ok cs => readTagText fuel (done ++ run ++ cs) after
    else return (done ++ run, after)

/-- Reads the non-empty text of a tag or of the expansion of a handle. -/
def readTagUri (fuel : Nat) (cursor : Cursor) : Except Failure (String × Cursor) := do
  let (cs, after) ← readTagText fuel [] cursor
  if after.index == cursor.index then throw .malformed else return (String.ofList cs, after)

/-- Reads a tag handle: `!`, `!!` or `!word!`. -/
def readTagHandle (cursor : Cursor) : Except Failure (String × Cursor) := do
  if (← cursor.peek) != '!' then throw .malformed
  else if (← cursor.peekAt 1) == ' ' then return ("!", ← cursor.next)
  else
    let (word, after) ← (← cursor.next).takeRun isWordChar
    if (← after.peek) == '!' then
      return (String.ofList ('!' :: word ++ ['!']), ← after.next)
    else throw .malformed

/-- Whether a tag that does not begin with `!<` has a handle of its own: another `!` before the next
space. -/
def hasHandle (cursor : Cursor) : Except Failure Bool := do
  let word := (cursor.rest.drop 1).takeWhile fun c => !isSpaceOrEnd c && c != '!'
  return (← cursor.peekAt (word.length + 1)) == '!'

/-- Reads a tag; the cursor stands on its mark. -/
def readTag (fuel : Nat) (cursor : Cursor) : Except Failure (Token × Cursor) := do
  let second ← cursor.peekAt 1
  let (handle, suffix, after) ←
    if second == '<' then do
      let (suffix, after) ← readTagUri fuel (← cursor.advance 2)
      if (← after.peek) != '>' then throw .malformed
      pure (none, suffix, ← after.next)
    else if isGap second then do
      pure (none, "!", ← cursor.next)
    else do
      let (handle, after) ←
        if ← hasHandle cursor then readTagHandle cursor else pure ("!", ← cursor.next)
      let (suffix, after) ← readTagUri fuel after
      pure (some handle, suffix, after)
  if isSpaceOrEnd (← after.peek) then return (.tag handle suffix, after) else throw .malformed

/-! ## Directives -/

/-- Reads a number of a version directive. -/
def readVersionNumber (cursor : Cursor) : Except Failure (Int × Cursor) := do
  let (digits, after) ← cursor.takeRun isPlainDigit
  if digits.isEmpty then throw .malformed
  else
    let text := Text.ofChars digits
    match Text.readInteger 10 text with
    | .ok n => return (n, after)
    | .error e => throw (.scalar (.integer 10 text e))

/-- Reads the version of a version directive. -/
def readVersion (cursor : Cursor) : Except Failure (Token × Cursor) := do
  let (major, afterMajor) ← readVersionNumber (← cursor.skipSpaces)
  if (← afterMajor.peek) != '.' then throw .malformed
  let (_, after) ← readVersionNumber (← afterMajor.next)
  if isSpaceOrEnd (← after.peek) then return (.versionDirective major, after)
  else throw .malformed

/-- Reads the handle and the expansion of a tag directive. -/
def readTagDirective (fuel : Nat) (cursor : Cursor) : Except Failure (Token × Cursor) := do
  let (handle, afterHandle) ← readTagHandle (← cursor.skipSpaces)
  if (← afterHandle.peek) != ' ' then throw .malformed
  let (expansion, after) ← readTagUri fuel (← afterHandle.skipSpaces)
  if isSpaceOrEnd (← after.peek) then return (.tagDirective handle expansion, after)
  else throw .malformed

/-- Reads what follows the name of a directive. Directives with unknown names are skipped. -/
def readDirectiveBody (fuel : Nat) (name : String) (cursor : Cursor) :
    Except Failure (Token × Cursor) :=
  match name with
  | "YAML" => readVersion cursor
  | "TAG" => readTagDirective fuel cursor
  | _ => (cursor.skipRun (!isLineEnd ·)).map fun after => (.otherDirective, after)

/-- Reads a directive with its whole line; the cursor stands on its mark. -/
def readDirective (fuel : Nat) (cursor : Cursor) : Except Failure (Token × Cursor) := do
  let (name, afterName) ← (← cursor.next).takeRun isWordChar
  if name.isEmpty then throw .malformed
  if !isSpaceOrEnd (← afterName.peek) then throw .malformed
  let (token, after) ← readDirectiveBody fuel (String.ofList name) afterName
  let after ← (← after.skipSpaces).skipComment
  if isLineEnd (← after.peek) then return (token, ← after.skipBreak) else throw .malformed

end OpenApiClient.Document.Yaml
