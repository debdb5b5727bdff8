import OpenApiClient.Text.CodePoint
import OpenApiClient.Text.Printable

/-!
# Quoted Text

How messages show a text, or a run of bytes, between quotes. Single quotes are the rule; double
quotes are taken when the content has single quotes and no double ones. The quote in use and the
backslash are escaped, and so is everything that is not printable.
-/

namespace OpenApiClient.Text

/-! ## Pieces -/

/-- The hexadecimal digits of a number, at least `width` of them. -/
def hexDigits (width n : Nat) : List Char :=
  let digits := Nat.toDigits 16 n
  List.replicate (width - digits.length) '0' ++ digits

/-- The quote put around a content. -/
def quoteFor (cs : List Char) : Char :=
  if cs.contains '\'' && !cs.contains '"' then '"' else '\''

/-- The escapes that have a letter of their own. -/
def letterEscape? (c : Char) : Option (List Char) :=
  match c with
  | '\\' => some ['\\', '\\']
  | '\t' => some ['\\', 't']
  | '\n' => some ['\\', 'n']
  | '\r' => some ['\\', 'r']
  | _ => none

/-! ## Text -/

/-- One character inside the quotes `quote`. -/
def escapeChar (quote c : Char) : List Char :=
  if c == quote then ['\\', c]
  else match letterEscape? c with
    | some escape => escape
    | none =>
      if isPrintable c then [c]
      else if c.toNat < 0x100 then '\\' :: 'x' :: hexDigits 2 c.toNat
      else if c.toNat < 0x10000 then '\\' :: 'u' :: hexDigits 4 c.toNat
      else '\\' :: 'U' :: hexDigits 8 c.toNat

/-- One code point inside the quotes `quote`. -/
def escapePoint (quote : Char) : CodePoint → List Char
  | .char c => escapeChar quote c
  | .surrogate offset => '\\' :: 'u' :: hexDigits 4 (CodePoint.surrogateBase + offset)

/-- A text between quotes. -/
def quoted (text : Text) : String :=
  let quote := quoteFor (text.filterMap CodePoint.char?)
  String.ofList (quote :: text.flatMap (escapePoint quote) ++ [quote])

/-! ## Bytes -/

/-- One byte inside the quotes `quote`. -/
def escapeByte (quote : Char) (b : UInt8) : List Char :=
  let c := Char.ofNat b.toNat
  if c == quote then ['\\', c]
  else match letterEscape? c with
    | some escape => escape
    | none =>
      if 0x20 ≤ b && b < 0x7F then [c]
      else '\\' :: 'x' :: hexDigits 2 b.toNat

/-- A run of bytes between quotes, marked by a leading `b`. -/
def quotedBytes (bytes : List UInt8) : String :=
  let quote := quoteFor (bytes.map fun b => Char.ofNat b.toNat)
  String.ofList ('b' :: quote :: bytes.flatMap (escapeByte quote) ++ [quote])

end OpenApiClient.Text
