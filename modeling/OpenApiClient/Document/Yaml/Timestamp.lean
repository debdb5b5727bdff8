import OpenApiClient.Document.Calendar
import OpenApiClient.Text.DecimalDigit

/-!
# Timestamps

The notation of dates and times in YAML scalars.
-/

namespace OpenApiClient.Document.Yaml

open OpenApiClient.Text (isPlainDigit plainDigitsValue)

/-! ## The notation -/

/-- A distance from universal time as written. -/
inductive Zone where
  | universal
  | shifted (negative : Bool) (hours minutes : Nat)
  deriving DecidableEq, Repr

/-- A time of day as written; the fraction is a run of digits. -/
structure Clock where
  hour : Nat
  minute : Nat
  second : Nat
  fraction : List Char
  zone : Option Zone
  deriving DecidableEq, Repr

/-- A date as written, perhaps with a time of day. -/
structure Timestamp where
  year : Nat
  month : Nat
  day : Nat
  clock : Option Clock
  deriving DecidableEq, Repr

/-! ## Reading -/

/-- Takes a run of digits whose length lies within bounds. -/
def takeNumber (least most : Nat) (cs : List Char) : Option (Nat × List Char) :=
  let digits := cs.takeWhile isPlainDigit
  if least ≤ digits.length && digits.length ≤ most then
    some (plainDigitsValue digits, cs.drop digits.length)
  else none

/-- Takes a mark. -/
def takeMark (mark : Char) : List Char → Option (List Char)
  | [] => none
  | c :: cs => if c == mark then some cs else none

/-- Whether a character is a space or a tab. -/
def isInlineSpace (c : Char) : Bool :=
  c == ' ' || c == '\t'

/-- Reads a distance from universal time, which makes up the rest of the text. -/
def readZone (cs : List Char) : Option (Option Zone) :=
  match cs.dropWhile isInlineSpace with
  | [] => if cs.isEmpty then some none else none
  | ['Z'] => some (some .universal)
  | sign :: rest =>
    if sign == '-' || sign == '+' then do
      let (hours, rest) ← takeNumber 1 2 rest
      if rest.isEmpty then some (some (.shifted (sign == '-') hours 0))
      else do
        let (minutes, rest) ← takeNumber 2 2 (← takeMark ':' rest)
        if rest.isEmpty then some (some (.shifted (sign == '-') hours minutes)) else none
    else none

/-- Reads a time of day, which makes up the rest of the text. -/
def readClock (cs : List Char) : Option Clock := do
  let (hour, cs) ← takeNumber 1 2 cs
  let (minute, cs) ← takeNumber 2 2 (← takeMark ':' cs)
  let (second, cs) ← takeNumber 2 2 (← takeMark ':' cs)
  let (fraction, cs) :=
    match cs with
    | '.' :: rest => (rest.takeWhile isPlainDigit, rest.dropWhile isPlainDigit)
    | rest => ([], rest)
  let zone ← readZone cs
  return ⟨hour, minute, second, fraction, zone⟩

/-- Reads a timestamp, which makes up the whole text. -/
def readTimestamp (cs : List Char) : Option Timestamp := do
  let (year, cs) ← takeNumber 4 4 cs
  let (month, cs) ← takeNumber 1 2 (← takeMark '-' cs)
  let (day, cs) ← takeNumber 1 2 (← takeMark '-' cs)
  match cs with
  | [] => return ⟨year, month, day, none⟩
  | c :: rest =>
    if c == 'T' || c == 't' then return ⟨year, month, day, some (← readClock rest)⟩
    else if isInlineSpace c then
      return ⟨year, month, day, some (← readClock (rest.dropWhile isInlineSpace))⟩
    else none

/-- Whether a plain scalar is taken for a timestamp: a date alone must have all its digits. -/
def isTimestamp (cs : List Char) : Bool :=
  match readTimestamp cs with
  | none => false
  | some stamp => stamp.clock.isSome || cs.length == 10

/-! ## Values -/

/-- The microseconds that a fraction denotes; digits beyond the sixth are ignored. -/
def microseconds (fraction : List Char) : Nat :=
  let digits := fraction.take 6
  plainDigitsValue digits * Nat.pow 10 (6 - digits.length)

/-- The distance from universal time in seconds. -/
def Zone.seconds : Zone → Int
  | .universal => 0
  | .shifted negative hours minutes =>
    let size := Int.ofNat (hours * 3600 + minutes * 60)
    if negative then -size else size

/-- The time that a date and a time of day denote. -/
def Timestamp.toDateTime (stamp : Timestamp) (clock : Clock) : Except CalendarError DateTime := do
  let offset ← match clock.zone with
    | none => .ok none
    | some zone => (checkOffset zone.seconds).map some
  let date ← Date.of stamp.year stamp.month stamp.day
  DateTime.of date clock.hour clock.minute clock.second (microseconds clock.fraction) offset

end OpenApiClient.Document.Yaml
