/-!
# Occurrences

Finding, replacing and cutting at occurrences of one text inside another. Occurrences are taken
from left to right and do not overlap.
-/

namespace OpenApiClient.Text

variable {α : Type} [BEq α]

/-! ## Finding -/

/-- Whether `needle` occurs somewhere in a text. -/
def occursIn (needle : List α) : List α → Bool
  | [] => needle.isEmpty
  | x :: xs => needle.isPrefixOf (x :: xs) || occursIn needle xs

/-! ## Replacing -/

/-- Copies a text, writing `replacement` for each occurrence of `pattern`; the first `skip` elements
belong to an occurrence already replaced. -/
def replaceFrom (pattern replacement : List α) : Nat → List α → List α
  | _, [] => []
  | skip + 1, _ :: xs => replaceFrom pattern replacement skip xs
  | 0, x :: xs =>
    if pattern.isPrefixOf (x :: xs) then
      replacement ++ replaceFrom pattern replacement (pattern.length - 1) xs
    else
      x :: replaceFrom pattern replacement 0 xs

/-- A text with every occurrence of a non-empty `pattern` replaced. -/
def replaceAll (pattern replacement xs : List α) : List α :=
  replaceFrom pattern replacement 0 xs

/-! ## Cutting -/

/-- What follows the last `mark` of a text, or the whole text when there is none. -/
def afterLast (mark : α) (xs : List α) : List α :=
  (xs.reverse.takeWhile (· != mark)).reverse

/-- What precedes the first `mark` of a text, or the whole text when there is none. -/
def beforeFirst (mark : α) (xs : List α) : List α :=
  xs.takeWhile (· != mark)

end OpenApiClient.Text
