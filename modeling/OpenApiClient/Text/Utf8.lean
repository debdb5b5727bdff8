import OpenApiClient.Text.Quoted

/-!
# UTF-8

Encoding text, which fails at a surrogate, and decoding bytes, with the place and the reason of the
first fault.
-/

namespace OpenApiClient.Text.Utf8

/-! ## Encoding -/

/-- Surrogates in a text that was to be encoded: the place and the code of the first one, and how
many stand there in a row. -/
structure Unencodable where
  position : Nat
  code : Nat
  length : Nat
  deriving DecidableEq, Repr

/-- The wording for surrogates: a single one is named, several are given by their places. -/
def Unencodable.message (fault : Unencodable) : String :=
  let place :=
    if fault.length == 1 then
      "character '\\u" ++ String.ofList (hexDigits 4 fault.code) ++ "' in position " ++
        toString fault.position
    else
      "characters in position " ++ toString fault.position ++ "-" ++
        toString (fault.position + fault.length - 1)
  "'utf-8' codec can't encode " ++ place ++ ": surrogates not allowed"

/-- The first surrogates of a text. -/
def firstSurrogates? (text : Text) : Option Unencodable :=
  let position := (text.takeWhile (!·.isSurrogate)).length
  match text.drop position with
  | [] => none
  | point :: rest =>
    some ⟨position, point.toNat, (rest.takeWhile (·.isSurrogate)).length + 1⟩

/-- The bytes of a text. -/
def encode (text : Text) : Except Unencodable (List UInt8) :=
  match firstSurrogates? text with
  | some fault => .error fault
  | none => .ok ((text.filterMap CodePoint.char?).flatMap String.utf8EncodeChar)

/-! ## Faults -/

/-- What is wrong with a byte sequence. -/
inductive Reason where
  /-- No character begins with this byte. -/
  | invalidStart
  /-- A byte that must continue a character does not. -/
  | invalidContinuation
  /-- The bytes end inside a character. -/
  | unexpectedEnd
  deriving DecidableEq, Repr

/-- A fault: its reason, the place of its first byte, that byte, and how many bytes it spans. -/
structure Fault where
  reason : Reason
  position : Nat
  byte : UInt8
  length : Nat
  deriving DecidableEq, Repr

/-- The wording of a reason. -/
def Reason.message : Reason → String
  | .invalidStart => "invalid start byte"
  | .invalidContinuation => "invalid continuation byte"
  | .unexpectedEnd => "unexpected end of data"

/-- The wording of a fault: one byte is named, several are given by their places. -/
def Fault.message (fault : Fault) : String :=
  let place :=
    if fault.length == 1 then
      "byte 0x" ++ String.ofList (hexDigits 2 fault.byte.toNat) ++ " in position " ++
        toString fault.position
    else
      "bytes in position " ++ toString fault.position ++ "-" ++
        toString (fault.position + fault.length - 1)
  "'utf-8' codec can't decode " ++ place ++ ": " ++ fault.reason.message

/-! ## One character -/

/-- Whether a byte may continue a character. -/
def isTail (b : UInt8) : Bool :=
  0x80 ≤ b && b ≤ 0xBF

/-- Whether `b` may come second after the first byte `lead`: overlong forms, surrogates and code
points beyond the last plane are excluded here. -/
def isSecond (lead b : UInt8) : Bool :=
  isTail b &&
    (if lead == 0xE0 then 0xA0 ≤ b
     else if lead == 0xED then b ≤ 0x9F
     else if lead == 0xF0 then 0x90 ≤ b
     else if lead == 0xF4 then b ≤ 0x8F
     else true)

/-- Whether `lead` and `b` at the end of a run may be completed later; that they belong to a surrogate
is found out only with the third byte, or at the end of the text. -/
def isStart (lead b : UInt8) : Bool :=
  isSecond lead b || (lead == 0xED && isTail b)

/-- The number of bytes of the character that `lead` begins, zero when it begins none. -/
def width (lead : UInt8) : Nat :=
  if lead < 0x80 then 1
  else if lead < 0xC2 then 0
  else if lead < 0xE0 then 2
  else if lead < 0xF0 then 3
  else if lead < 0xF5 then 4
  else 0

/-- The six bits that a tail byte carries. -/
def tailBits (b : UInt8) : Nat :=
  b.toNat % 0x40

/-! ## Runs of bytes -/

/-- The result of decoding a run: the characters, and then a fault or the bytes of a character that
the end of the run cuts off. -/
structure Decoded where
  chars : List Char
  fault : Option Fault
  cutOff : List UInt8
  cutOffPosition : Nat

/-- Decodes a run whose first byte stands at `position`; `done` holds the characters so far, last
one first. -/
def decodeFrom (position : Nat) (done : List Char) : List UInt8 → Decoded
  | [] => ⟨done.reverse, none, [], position⟩
  | lead :: rest =>
    let faulty (reason : Reason) (length : Nat) : Decoded :=
      ⟨done.reverse, some ⟨reason, position, lead, length⟩, [], position⟩
    let cutOff : Decoded := ⟨done.reverse, none, lead :: rest, position⟩
    match width lead with
    | 1 => decodeFrom (position + 1) (Char.ofNat lead.toNat :: done) rest
    | 2 =>
      match rest with
      | [] => cutOff
      | second :: rest =>
        if isTail second then
          let code := lead.toNat % 0x20 * 0x40 + tailBits second
          decodeFrom (position + 2) (Char.ofNat code :: done) rest
        else faulty .invalidContinuation 1
    | 3 =>
      match rest with
      | [] => cutOff
      | [second] => if isStart lead second then cutOff else faulty .invalidContinuation 1
      | second :: third :: rest =>
        if !isSecond lead second then faulty .invalidContinuation 1
        else if !isTail third then faulty .invalidContinuation 2
        else
          let code := (lead.toNat % 0x10 * 0x40 + tailBits second) * 0x40 + tailBits third
          decodeFrom (position + 3) (Char.ofNat code :: done) rest
    | 4 =>
      match rest with
      | [] => cutOff
      | [second] => if isSecond lead second then cutOff else faulty .invalidContinuation 1
      | [second, third] =>
        if !isSecond lead second then faulty .invalidContinuation 1
        else if isTail third then cutOff else faulty .invalidContinuation 2
      | second :: third :: fourth :: rest =>
        if !isSecond lead second then faulty .invalidContinuation 1
        else if !isTail third then faulty .invalidContinuation 2
        else if !isTail fourth then faulty .invalidContinuation 3
        else
          let code :=
            ((lead.toNat % 8 * 0x40 + tailBits second) * 0x40 + tailBits third) * 0x40 +
              tailBits fourth
          decodeFrom (position + 4) (Char.ofNat code :: done) rest
    | _ => faulty .invalidStart 1

/-- The fault of a text that ends inside a character. -/
def cutOffFault (decoded : Decoded) : Option Fault :=
  match decoded.cutOff with
  | [] => none
  | lead :: rest =>
    if rest.head?.all (isSecond lead) then
      some ⟨.unexpectedEnd, decoded.cutOffPosition, lead, rest.length + 1⟩
    else some ⟨.invalidContinuation, decoded.cutOffPosition, lead, 1⟩

/-- Decodes a whole text. -/
def decode (bytes : List UInt8) : Except Fault (List Char) :=
  let decoded := decodeFrom 0 [] bytes
  match decoded.fault with
  | some fault => .error fault
  | none =>
    match cutOffFault decoded with
    | some fault => .error fault
    | none => .ok decoded.chars

end OpenApiClient.Text.Utf8
