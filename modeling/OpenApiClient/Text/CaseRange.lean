/-!
# Case Ranges

Case mappings between single characters run along stretches of the code space: every
character of a stretch, or every second one, moves by one fixed distance. A case table is a list
of such stretches.
-/

namespace OpenApiClient.Text

/-- The characters `first, first + step, …, last`, each of which maps to the character `offset`
places further on. -/
structure CaseRange where
  first : Nat
  last : Nat
  step : Nat
  offset : Int
  deriving DecidableEq, Repr

namespace CaseRange

/-- Whether the code point `code` belongs to the stretch. -/
def covers (range : CaseRange) (code : Nat) : Bool :=
  range.first ≤ code && code ≤ range.last && (code - range.first) % range.step == 0

/-- The code point that `code` maps to, when the stretch covers it. -/
def shift (range : CaseRange) (code : Nat) : Nat :=
  (Int.ofNat code + range.offset).toNat

/-- The character that `c` maps to in a table: the first stretch that covers it decides, and a
character that no stretch covers is its own image. -/
def lookup (table : List CaseRange) (c : Char) : Char :=
  match table.find? (·.covers c.toNat) with
  | some range => Char.ofNat (range.shift c.toNat)
  | none => c

end CaseRange

end OpenApiClient.Text
