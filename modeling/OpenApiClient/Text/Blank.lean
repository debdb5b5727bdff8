import OpenApiClient.Text.CodePoint

/-!
# Blank Characters

White space as titles, identifiers and version numbers know it, and trimming it from both ends.
The class is wider than the plain space, tab and line ends: it has the separators `U+001C` to
`U+001F`, the next-line control and the typographic spaces.
-/

namespace OpenApiClient.Text

/-! ## The class -/

/-- Whether a character is white space. -/
def isBlank (c : Char) : Bool :=
  let code := c.toNat
  (0x09 ≤ code && code ≤ 0x0D) || (0x1C ≤ code && code ≤ 0x20) || code == 0x85 || code == 0xA0 ||
    code == 0x1680 || (0x2000 ≤ code && code ≤ 0x200A) || code == 0x2028 || code == 0x2029 ||
    code == 0x202F || code == 0x205F || code == 0x3000

/-! ## Trimming -/

/-- A sequence without the leading and trailing elements of a class. -/
def trimBy {α : Type} (drops : α → Bool) (xs : List α) : List α :=
  ((xs.dropWhile drops).reverse.dropWhile drops).reverse

/-- A text without its leading and trailing white space. -/
def trim (text : Text) : Text :=
  trimBy (·.is isBlank) text

/-- Whether a text holds nothing but white space. -/
def isAllBlank (text : Text) : Bool :=
  text.all (·.is isBlank)

end OpenApiClient.Text
