import OpenApiClient.Document.Yaml.BlockScalar
import OpenApiClient.Document.Yaml.PlainScalar
import OpenApiClient.Document.Yaml.Property
import OpenApiClient.Document.Yaml.QuotedScalar

/-!
# Token Streams

Cutting a YAML text into tokens. A mapping key is recognised only by the colon after it, so a token
that may turn out to begin a key is held back until that is known: at most to the end of its line and
for at most 1024 characters. What a reader of tokens sees is the stream of released tokens, and
perhaps a failure after them.

## Layers

- The state: cursor, indentation, tokens held back, pending keys
- Keys and indentation
- One token after the other
- The whole stream
-/

namespace OpenApiClient.Document.Yaml

/-! ## The state -/

/-- A place where a mapping key may have begun. -/
structure PendingKey where
  /-- The number of its token, counted from the start of the stream. -/
  number : Nat
  /-- Whether the text is wrong unless the key is completed. -/
  required : Bool
  index : Nat
  line : Nat
  column : Nat

/-- The state of cutting a text into tokens. -/
structure Scan where
  cursor : Cursor
  /-- The tokens that were released, last one first. -/
  released : List Token := []
  /-- The number of released tokens. -/
  count : Nat := 0
  /-- The tokens held back, in order. -/
  held : List Token := []
  /-- The number of open flow collections. -/
  flowLevel : Nat := 0
  /-- The column of the block collection at hand, `-1` outside of all. -/
  indent : Int := -1
  /-- The columns of the enclosing block collections, innermost first. -/
  indents : List Int := []
  /-- Whether a key may begin here. -/
  allowsKey : Bool := true
  /-- The pending keys, by the number of flow collections around them. -/
  pending : List (Nat × PendingKey) := []
  done : Bool := false

namespace Scan

/-- Whether the place is inside a flow collection. -/
def inFlow (scan : Scan) : Bool :=
  scan.flowLevel != 0

/-- Adds a token. -/
def push (scan : Scan) (token : Token) : Scan :=
  { scan with held := scan.held ++ [token] }

/-- Adds the token that one or more characters make up. -/
def pushAt (scan : Scan) (token : Token) (after : Cursor) : Scan :=
  { scan.push token with cursor := after }

/-! ## Pending keys -/

/-- Gives up the pending key of the present flow level. -/
def dropKey (scan : Scan) : Except Failure Scan :=
  match scan.pending.lookup scan.flowLevel with
  | none => .ok scan
  | some key =>
    if key.required then .error .malformed
    else .ok { scan with pending := scan.pending.filter (·.1 != scan.flowLevel) }

/-- Remembers that a key may begin here. -/
def saveKey (scan : Scan) : Except Failure Scan :=
  if scan.allowsKey then
    let cursor := scan.cursor
    let key : PendingKey :=
      { number := scan.count + scan.held.length
        required := !scan.inFlow && scan.indent == Int.ofNat cursor.column
        index := cursor.index, line := cursor.line, column := cursor.column }
    scan.dropKey.map fun scan =>
      { scan with pending := (scan.flowLevel, key) :: scan.pending }
  else .ok scan

/-- Gives up the pending keys that began on another line or too far back. -/
def dropStaleKeys (scan : Scan) : Except Failure Scan :=
  let isStale (key : PendingKey) : Bool :=
    key.line != scan.cursor.line || 1024 < scan.cursor.index - key.index
  if scan.pending.any fun entry => isStale entry.2 && entry.2.required then .error .malformed
  else .ok { scan with pending := scan.pending.filter fun entry => !isStale entry.2 }

/-- Whether the token with this number is the earliest pending key. -/
def isEarliestKey (scan : Scan) (number : Nat) : Bool :=
  scan.pending.any (·.2.number == number) && scan.pending.all (number ≤ ·.2.number)

/-- Releases the tokens that stand before the earliest pending key. -/
def release (scan : Scan) : Scan :=
  let rec go (released : List Token) (count : Nat) : List Token → Scan
    | [] => { scan with released, count, held := [] }
    | token :: held =>
      if scan.isEarliestKey count then { scan with released, count, held := token :: held }
      else go (token :: released) (count + 1) held
  go scan.released scan.count scan.held

/-! ## Indentation -/

/-- Closes block collections that are indented deeper than `column`. -/
def unwind (scan : Scan) (column : Int) : Scan :=
  if scan.inFlow then scan
  else
    let rec go (scan : Scan) : List Int → Scan
      | [] => scan
      | outer :: indents =>
        if scan.indent > column then
          go { scan.push .blockEnd with indent := outer, indents } indents
        else scan
    go scan scan.indents

/-- Opens a block collection at `column`, unless one is open there. -/
def openBlock? (scan : Scan) (column : Nat) : Option Scan :=
  if scan.indent < Int.ofNat column then
    some { scan with indent := Int.ofNat column, indents := scan.indent :: scan.indents }
  else none

/-- Opens a block collection at the cursor, unless one is open there. -/
def openBlockHere (scan : Scan) (token : Token) : Scan :=
  match scan.openBlock? scan.cursor.column with
  | some opened => opened.push token
  | none => scan

/-- Adds a token at the place where a pending key began. -/
def insertAt (scan : Scan) (number : Nat) (token : Token) : Scan :=
  let place := number - scan.count
  { scan with held := scan.held.take place ++ token :: scan.held.drop place }

/-! ## Tokens -/

/-- The cursor at the next token: spaces, comments and line ends are skipped, and outside flow
collections a new line may begin a key. -/
def skipGaps (inFlow : Bool) : (fuel : Nat) → (allowsKey : Bool) → Cursor →
    Except Failure (Bool × Cursor)
  | 0, allowsKey, cursor => .ok (allowsKey, cursor)
  | fuel + 1, allowsKey, cursor => do
    let cursor ← (← cursor.skipSpaces).skipComment
    match ← cursor.takeBreak? with
    | some (_, after) => skipGaps inFlow fuel (allowsKey || !inFlow) after
    | none => return (allowsKey, cursor)

/-- Adds the end of the stream. -/
def finish (scan : Scan) : Except Failure Scan := do
  let scan ← (scan.unwind (-1)).dropKey
  return { scan.push .streamEnd with allowsKey := false, pending := [], done := true }

/-- Adds a directive. -/
def directive (fuel : Nat) (scan : Scan) : Except Failure Scan := do
  let scan ← (scan.unwind (-1)).dropKey
  let (token, after) ← readDirective fuel scan.cursor
  return { scan.pushAt token after with allowsKey := false }

/-- Adds the mark of the start or the end of a document. -/
def documentMark (scan : Scan) (token : Token) : Except Failure Scan := do
  let scan ← (scan.unwind (-1)).dropKey
  return { scan.pushAt token (← scan.cursor.advance 3) with allowsKey := false }

/-- Adds the start of a flow collection, which may be a key. -/
def flowStart (scan : Scan) (token : Token) : Except Failure Scan := do
  let scan ← scan.saveKey
  return { scan.pushAt token (← scan.cursor.next) with
    flowLevel := scan.flowLevel + 1, allowsKey := true }

/-- Adds the end of a flow collection. -/
def flowEnd (scan : Scan) (token : Token) : Except Failure Scan := do
  let scan ← scan.dropKey
  return { scan.pushAt token (← scan.cursor.next) with
    flowLevel := scan.flowLevel - 1, allowsKey := false }

/-- Adds the separator of flow collections. -/
def flowEntry (scan : Scan) : Except Failure Scan := do
  let scan ← scan.dropKey
  return { scan.pushAt .flowEntry (← scan.cursor.next) with allowsKey := true }

/-- Adds an indicator that may open a block collection. -/
def blockIndicator (scan : Scan) (opening token : Token) (allowsKey : Bool) :
    Except Failure Scan := do
  if !scan.inFlow && !scan.allowsKey then throw .malformed
  let scan ← (if scan.inFlow then scan else scan.openBlockHere opening).dropKey
  return { scan.pushAt token (← scan.cursor.next) with allowsKey }

/-- Adds the indicator of a key before the first token of a pending key, and opens a block mapping
there unless one is open. -/
def completeKey (scan : Scan) (key : PendingKey) : Scan :=
  let scan := { scan with pending := scan.pending.filter (·.1 != scan.flowLevel) }
  let scan := scan.insertAt key.number .key
  if scan.inFlow then scan
  else match scan.openBlock? key.column with
    | some opened => opened.insertAt key.number .blockMappingStart
    | none => scan

/-- Adds the indicator of a value; it makes the pending key, if there is one, a key. -/
def value (scan : Scan) : Except Failure Scan := do
  match scan.pending.lookup scan.flowLevel with
  | some key =>
    let scan := scan.completeKey key
    return { scan.pushAt .value (← scan.cursor.next) with allowsKey := false }
  | none => scan.blockIndicator .blockMappingStart .value (!scan.inFlow)

/-- Adds a token that may be a key or begin one. -/
def keyCandidate (scan : Scan) (read : Cursor → Except Failure (Token × Cursor)) :
    Except Failure Scan := do
  let scan ← scan.saveKey
  let (token, after) ← read scan.cursor
  return { scan.pushAt token after with allowsKey := false }

/-- Adds a block scalar. -/
def blockScalar (fuel : Nat) (scan : Scan) (folded : Bool) : Except Failure Scan := do
  let scan ← scan.dropKey
  let (text, after) ← readBlockScalar fuel folded scan.indent scan.cursor
  return { scan.pushAt (.scalar (.ofChars text) false) after with allowsKey := true }

/-- Adds a plain scalar; if it ends at the start of a line, a key may follow. -/
def plainScalar (fuel : Nat) (scan : Scan) : Except Failure Scan := do
  let scan ← scan.saveKey
  let scalar ← readPlainScalar fuel scan.inFlow scan.indent scan.cursor
  return { scan.pushAt (.scalar (.ofChars scalar.text) true) scalar.after with
    allowsKey := scalar.crossesLine }

/-- Whether a document separator of this mark stands at the cursor. -/
def atSeparator (scan : Scan) (c mark : Char) : Except Failure Bool :=
  if c == mark && scan.cursor.column == 0 then scan.cursor.atSeparator [mark] else .ok false

/-- Whether an indicator stands at the cursor that counts before a gap, and perhaps also anywhere in
flow collections. -/
def atIndicator (scan : Scan) (c mark : Char) (anywhereInFlow : Bool) : Except Failure Bool :=
  if c != mark then .ok false
  else if anywhereInFlow && scan.inFlow then .ok true
  else scan.cursor.isGapAt 1

/-- Adds the token that begins at the cursor with a character that can mean several things. -/
def ambiguousToken (fuel : Nat) (scan : Scan) (c : Char) : Except Failure Scan := do
  if ← scan.atSeparator c '-' then scan.documentMark .documentStart
  else if ← scan.atSeparator c '.' then scan.documentMark .documentEnd
  else if ← scan.atIndicator c '-' false then
    scan.blockIndicator .blockSequenceStart .blockEntry true
  else if ← scan.atIndicator c '?' true then
    scan.blockIndicator .blockMappingStart .key (!scan.inFlow)
  else if ← scan.atIndicator c ':' true then scan.value
  else if ← startsPlainScalar scan.inFlow scan.cursor then scan.plainScalar fuel
  else throw .malformed

/-- Adds the token that begins at the cursor. -/
def token (fuel : Nat) (scan : Scan) : Except Failure Scan := do
  let c ← scan.cursor.peek
  if c == endMark then scan.finish
  else if c == '%' && scan.cursor.column == 0 then scan.directive fuel
  else if c == '[' then scan.flowStart .flowSequenceStart
  else if c == '{' then scan.flowStart .flowMappingStart
  else if c == ']' then scan.flowEnd .flowSequenceEnd
  else if c == '}' then scan.flowEnd .flowMappingEnd
  else if c == ',' then scan.flowEntry
  else if c == '*' then
    scan.keyCandidate fun cursor =>
      (readAnchorName cursor).map fun (name, after) => (.reference name, after)
  else if c == '&' then
    scan.keyCandidate fun cursor =>
      (readAnchorName cursor).map fun (name, after) => (.anchor name, after)
  else if c == '!' then scan.keyCandidate (readTag fuel)
  else if c == '|' && !scan.inFlow then scan.blockScalar fuel false
  else if c == '>' && !scan.inFlow then scan.blockScalar fuel true
  else if c == '\'' || c == '"' then
    scan.keyCandidate fun cursor =>
      (readQuotedScalar fuel cursor).map fun (text, after) => (.scalar text false, after)
  else scan.ambiguousToken fuel c

/-- The place where tokens begin: a byte order mark at the start of the text does not count. -/
def skipByteOrderMark (cursor : Cursor) : Except Failure Cursor := do
  if cursor.index == 0 && (← cursor.peek) == '\ufeff' then cursor.next else return cursor

/-- Goes on to the next token, closes the block collections that end before it, and adds it. -/
def step (fuel : Nat) (scan : Scan) : Except Failure Scan := do
  let start ← skipByteOrderMark scan.cursor
  let (allowsKey, cursor) ← skipGaps scan.inFlow fuel scan.allowsKey start
  let scan ← { scan with cursor, allowsKey }.dropStaleKeys
  let scan ← (scan.unwind (Int.ofNat scan.cursor.column)).token fuel
  scan.dropStaleKeys

/-! ## The stream -/

/-- Adds tokens until the end of the text or a failure. -/
def run (bound : Nat) : (fuel : Nat) → Scan → Scan × Option Failure
  | 0, scan => (scan, none)
  | fuel + 1, scan =>
    if scan.done then (scan, none)
    else match scan.step bound with
      | .error e => (scan, some e)
      | .ok next => run bound fuel next.release

end Scan

/-- The tokens of a text, and the failure that ends them, if there is one. -/
structure TokenStream where
  tokens : List Token
  failure : Option Failure

/-- Cuts a text into tokens; `ending` tells why the text cannot be read beyond its end, if it goes on
there. -/
def TokenStream.ofChars (cs : List Char) (ending : Option Failure) : TokenStream :=
  let bound := cs.length + 2
  let (scan, failure) := Scan.run bound bound { cursor := { rest := cs, ending } }
  ⟨scan.released.reverse, failure⟩

end OpenApiClient.Document.Yaml
