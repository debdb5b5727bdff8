/-!
# Code Points

Text is a sequence of code points. A code point is a character, or a surrogate that stands alone:
escapes in a document can name such a surrogate, and text that has one can be compared, searched and
taken apart like any other, but it has no bytes and cannot be written to a file.
-/

namespace OpenApiClient

/-! ## Code points -/

/-- A code point; a surrogate is counted from the first one, `U+D800`. -/
inductive CodePoint where
  | char (c : Char)
  | surrogate (offset : Fin 0x800)
  deriving DecidableEq, Repr, Inhabited

namespace CodePoint

instance : Coe Char CodePoint := ⟨.char⟩

/-- The first surrogate. -/
def surrogateBase : Nat := 0xD800

/-- The code point of a number; the number `0` stands for those beyond the last one. -/
def ofNat (code : Nat) : CodePoint :=
  if h : surrogateBase ≤ code ∧ code < surrogateBase + 0x800 then
    .surrogate ⟨code - surrogateBase, by unfold surrogateBase at h ⊢; omega⟩
  else .char (Char.ofNat code)

/-- The number of a code point. -/
def toNat : CodePoint → Nat
  | .char c => c.toNat
  | .surrogate offset => surrogateBase + offset

/-- Whether a code point is a character of a class. -/
def is (belongs : Char → Bool) : CodePoint → Bool
  | .char c => belongs c
  | .surrogate _ => false

/-- Whether a code point is a surrogate. -/
def isSurrogate : CodePoint → Bool
  | .char _ => false
  | .surrogate _ => true

/-- The character that a code point is. -/
def char? : CodePoint → Option Char
  | .char c => some c
  | .surrogate _ => none

end CodePoint

/-! ## Text -/

/-- A sequence of code points. -/
abbrev Text := List CodePoint

namespace Text

/-- The text that consists of characters. -/
def ofChars (cs : List Char) : Text :=
  cs.map .char

/-- A string as text. -/
def ofString (s : String) : Text :=
  ofChars s.toList

instance : Coe String Text := ⟨ofString⟩

/-- The characters of a text without surrogates. -/
def chars? (text : Text) : Option (List Char) :=
  text.mapM CodePoint.char?

/-- Texts in a row, with a separator between any two. -/
def join (separator : Text) (texts : List Text) : Text :=
  separator.intercalate texts

/-- The mark of a byte that belongs to no character. -/
def replacement : Char := '\ufffd'

/-- The characters that show a code point; the three bytes that a surrogate would take belong to no
character. -/
def shownPoint : CodePoint → List Char
  | .char c => [c]
  | .surrogate _ => [replacement, replacement, replacement]

/-- A text as a string that can always be shown. -/
def shown (text : Text) : String :=
  String.ofList (text.flatMap shownPoint)

end Text

end OpenApiClient
