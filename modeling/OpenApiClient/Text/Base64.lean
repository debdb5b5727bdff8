/-!
# Base64

Decoding bytes written in base 64. The decoder is lenient: characters outside the alphabet are
skipped, and a padding that completes a group ends the text.
-/

namespace OpenApiClient.Text.Base64

/-- The value of a digit. -/
def digitValue? (c : Char) : Option Nat :=
  if 'A' ≤ c && c ≤ 'Z' then some (c.toNat - 'A'.toNat)
  else if 'a' ≤ c && c ≤ 'z' then some (c.toNat - 'a'.toNat + 26)
  else if '0' ≤ c && c ≤ '9' then some (c.toNat - '0'.toNat + 52)
  else if c == '+' then some 62
  else if c == '/' then some 63
  else none

/-- The significant digits of a text: those up to the padding that completes a group of four. `held`
is the number of digits in the group at hand, `pads` the number of padding signs after them. The
result is absent if the text ends inside a group. -/
def significantDigits : (held pads : Nat) → List Char → Option (List Nat)
  | held, _, [] => if held == 0 then some [] else none
  | held, pads, c :: cs =>
    if c == '=' then
      if held < 2 then significantDigits held pads cs
      else if held + pads + 1 < 4 then significantDigits held (pads + 1) cs
      else some []
    else match digitValue? c with
      | none => significantDigits held pads cs
      | some digit => (significantDigits ((held + 1) % 4) 0 cs).map (digit :: ·)

/-- The bytes that digits stand for; bits that make up no whole byte are dropped. -/
def bytesOf : List Nat → List UInt8
  | a :: b :: c :: d :: digits =>
    UInt8.ofNat (a * 4 + b / 16) :: UInt8.ofNat (b % 16 * 16 + c / 4) ::
      UInt8.ofNat (c % 4 * 64 + d) :: bytesOf digits
  | [a, b, c] => [UInt8.ofNat (a * 4 + b / 16), UInt8.ofNat (b % 16 * 16 + c / 4)]
  | [a, b] => [UInt8.ofNat (a * 4 + b / 16)]
  | _ => []

/-- Decodes a text. -/
def decode? (cs : List Char) : Option (List UInt8) :=
  (significantDigits 0 0 cs).map bytesOf

end OpenApiClient.Text.Base64
