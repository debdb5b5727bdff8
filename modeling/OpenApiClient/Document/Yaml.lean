import OpenApiClient.Document.Yaml.NodeReader
import OpenApiClient.Document.Yaml.Tree
import OpenApiClient.Text.Portion

/-!
# YAML Files

Reading a document from the bytes of a file. The text is taken in portions, each of which is decoded
and checked as a whole when reading gets to it: bytes that are no text and characters that no document
may hold count only if nothing before their portion is wrong.
-/

namespace OpenApiClient.Document.Yaml

open OpenApiClient.Text (portionSize)

/-! ## Readable text -/

/-- Whether a document may hold a character. -/
def isAcceptable (c : Char) : Bool :=
  let code := c.toNat
  code == 0x09 || code == 0x0A || code == 0x0D || (0x20 ≤ code && code ≤ 0x7E) || code == 0x85 ||
    (0xA0 ≤ code && code ≤ 0xFFFD) || 0x10000 ≤ code

/-- The start of the portion that a character belongs to. The first portion is twice as long. -/
def portionStart (index : Nat) : Nat :=
  if index < 2 * portionSize then 0 else index / portionSize * portionSize

/-- A text up to the portion that cannot be read, and why it cannot. -/
structure ReadableText where
  chars : List Char
  ending : Option Failure

/-- The readable part of a file. Of two troubles in one portion, bytes that are no text come first. -/
def ReadableText.ofBytes (bytes : List UInt8) : ReadableText :=
  let (chars, fault) := Text.decodeFile bytes
  let undecodable := fault.map fun fault => (portionStart chars.length, Failure.undecodable fault)
  let unacceptable := (chars.findIdx? fun c => !isAcceptable c).map fun index =>
    (portionStart index, Failure.unacceptable)
  let trouble := match undecodable, unacceptable with
    | some first, some second => some (if first.1 ≤ second.1 then first else second)
    | first, second => first <|> second
  match trouble with
  | some (start, failure) => ⟨chars.take start, some failure⟩
  | none => ⟨chars, none⟩

/-! ## Documents -/

/-- The nodes of the only document of a file. -/
def compose (bytes : List UInt8) : Except Failure RootedGraph :=
  let text := ReadableText.ofBytes bytes
  RootedGraph.ofTokens (TokenStream.ofChars text.chars text.ending)

/-- Reads the only document of a file; a file without one denotes null. -/
def read (bytes : List UInt8) : Except Failure Document := do
  let rooted ← compose bytes
  match rooted.root with
  | none => return { root := .null }
  | some root => return documentOf (← rooted.graph.contentsFrom root) root

end OpenApiClient.Document.Yaml
