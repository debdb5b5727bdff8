import OpenApiClient.Text.LineEnd
import OpenApiClient.Text.Utf8

/-!
# Text in Portions

The text of a file that is taken in portions of equal length. Its bytes are decoded in blocks: a
character cut by the end of a block is completed by the next one, and the place of a fault is counted
from the first byte of the block at hand, cut-off bytes of the previous one included. How large a
block is depends on how many characters the portion lacks and on how many bytes a character took in
the block before.
-/

namespace OpenApiClient.Text

/-! ## Sizes -/

/-- The number of characters in a portion of text. -/
def portionSize : Nat := 4096

/-- The least number of bytes in a block, except the last one. -/
def leastBlockSize : Nat := 8192

/-- The number of bytes in a block: what as many characters as the portion lacks would take, were
they like those of a block of `bytes` bytes and `chars` characters. -/
def blockSize (bytes chars lacking : Nat) : Nat :=
  max leastBlockSize (bytes * lacking / chars)

/-! ## Decoding -/

/-- How far decoding has come. -/
structure DecodingState where
  /-- The bytes of a character that the end of the last block cut off. -/
  cutOff : List UInt8 := []
  /-- A carriage return at the end of the last block: a line feed may still follow it. -/
  held : List Char := []
  /-- The number of characters so far, with unified line ends. -/
  count : Nat := 0
  /-- The number of bytes in the last block. -/
  blockBytes : Nat := 0
  /-- The number of characters that the last block added. -/
  blockChars : Nat := 0

/-- The number of bytes to take next. -/
def DecodingState.wanted (state : DecodingState) : Nat :=
  blockSize state.blockBytes state.blockChars (portionSize - state.count % portionSize)

/-- Splits a carriage return at the end of a text off. -/
def splitReturn (cs : List Char) : List Char × List Char :=
  if cs.getLast? == some '\r' then (cs.dropLast, ['\r']) else (cs, [])

/-- Decodes blocks one after the other: the characters in front of the first faulty block, and its
fault. Each round takes one block, so `rounds` bounds their number. -/
def decodeBlocks (state : DecodingState) : (rounds : Nat) → (bytes : List UInt8) →
    List Char × Option Utf8.Fault
  | 0, _ => ([], none)
  | rounds + 1, bytes =>
    if bytes.isEmpty then
      match Utf8.cutOffFault (Utf8.decodeFrom 0 [] state.cutOff) with
      | some fault => ([], some fault)
      | none => (unifyLineEnds state.held, none)
    else
      let block := bytes.take state.wanted
      let decoded := Utf8.decodeFrom 0 [] (state.cutOff ++ block)
      match decoded.fault with
      | some fault => ([], some fault)
      | none =>
        let (whole, held) := splitReturn (state.held ++ decoded.chars)
        let chars := unifyLineEnds whole
        let next : DecodingState :=
          { cutOff := decoded.cutOff
            held
            count := state.count + chars.length
            blockBytes := block.length
            blockChars := chars.length }
        let (more, fault) := decodeBlocks next rounds (bytes.drop block.length)
        (chars ++ more, fault)

/-- Decodes a file: its characters in front of the first faulty block, with unified line ends, and
the fault of that block. -/
def decodeFile (bytes : List UInt8) : List Char × Option Utf8.Fault :=
  decodeBlocks {} (bytes.length / leastBlockSize + 2) bytes

end OpenApiClient.Text
