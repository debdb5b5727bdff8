/-!
# Calendar Dates and Times

The dates and times that a document may hold, the reasons why a written date denotes none, and the
two texts of each: the interchange form (`2001-01-01`) and the form in which messages name a value.
-/

namespace OpenApiClient.Document

/-! ## Values -/

/-- A day of the calendar. -/
structure Date where
  year : Nat
  month : Nat
  day : Nat
  deriving DecidableEq, Repr

/-- A time on a day, to the microsecond; `offset` is the distance from universal time in seconds,
absent for a local time. -/
structure DateTime where
  date : Date
  hour : Nat
  minute : Nat
  second : Nat
  microsecond : Nat
  offset : Option Int
  deriving DecidableEq, Repr

/-! ## Well-formedness -/

/-- Why numbers denote no date or time. -/
inductive CalendarError where
  | year (year : Nat)
  | month
  | day
  | hour
  | minute
  | second
  | offset (seconds : Int)
  deriving DecidableEq, Repr

/-- The seconds of a day. -/
def daySeconds : Nat := 86400

/-- Whether a year has a leap day. -/
def isLeapYear (year : Nat) : Bool :=
  year % 4 == 0 && (year % 100 != 0 || year % 400 == 0)

/-- The number of days of a month. -/
def monthLength (year month : Nat) : Nat :=
  if month == 2 then (if isLeapYear year then 29 else 28)
  else if month == 4 || month == 6 || month == 9 || month == 11 then 30
  else 31

/-- The day that three numbers denote. -/
def Date.of (year month day : Nat) : Except CalendarError Date :=
  if year == 0 || 9999 < year then .error (.year year)
  else if month == 0 || 12 < month then .error .month
  else if day == 0 || monthLength year month < day then .error .day
  else .ok ⟨year, month, day⟩

/-- The time that numbers denote on a day. -/
def DateTime.of (date : Date) (hour minute second microsecond : Nat) (offset : Option Int) :
    Except CalendarError DateTime :=
  if 23 < hour then .error .hour
  else if 59 < minute then .error .minute
  else if 59 < second then .error .second
  else .ok ⟨date, hour, minute, second, microsecond, offset⟩

/-! ## Instants -/

/-- The number of days from the first day of year 1 to a day. -/
def Date.dayNumber (date : Date) : Nat :=
  let years := date.year - 1
  let months := (List.range (date.month - 1)).foldl
    (fun days m => days + monthLength date.year (m + 1)) 0
  years * 365 + years / 4 - years / 100 + years / 400 + months + (date.day - 1)

/-- The microseconds from the start of year 1 to a time, read on a clock set to universal time. -/
def DateTime.instant (time : DateTime) : Int :=
  let seconds := ((time.date.dayNumber * 24 + time.hour) * 60 + time.minute) * 60 + time.second
  (Int.ofNat seconds - time.offset.getD 0) * 1000000 + Int.ofNat time.microsecond

/-- Whether two times are the same: the same instant when both know their distance from universal
time, the same clock reading when neither does. -/
def DateTime.same (a b : DateTime) : Bool :=
  a.offset.isSome == b.offset.isSome && a.instant == b.instant

/-! ## Texts -/

/-- A number with leading zeros. -/
def padded (width n : Nat) : String :=
  let digits := Nat.toDigits 10 n
  String.ofList (List.replicate (width - digits.length) '0' ++ digits)

/-- A day as `2001-01-01`. -/
def Date.text (date : Date) : String :=
  padded 4 date.year ++ "-" ++ padded 2 date.month ++ "-" ++ padded 2 date.day

/-- A distance from universal time as `+05:30`. -/
def offsetText (seconds : Int) : String :=
  let size := seconds.natAbs
  let rest := if size % 60 == 0 then "" else ":" ++ padded 2 (size % 60)
  (if seconds < 0 then "-" else "+") ++ padded 2 (size / 3600) ++ ":" ++
    padded 2 (size / 60 % 60) ++ rest

/-- A time as `2001-01-01T12:00:00.500000+05:30`. -/
def DateTime.text (time : DateTime) : String :=
  let fraction := if time.microsecond == 0 then "" else "." ++ padded 6 time.microsecond
  time.date.text ++ "T" ++ padded 2 time.hour ++ ":" ++ padded 2 time.minute ++ ":" ++
    padded 2 time.second ++ fraction ++ (time.offset.map offsetText).getD ""

/-- A stretch of time as messages name it: whole days, then the remaining seconds. -/
def durationDescription (seconds : Int) : String :=
  let days := seconds / Int.ofNat daySeconds
  let rest := seconds % Int.ofNat daySeconds
  let parts :=
    (if days == 0 then [] else ["days=" ++ toString days]) ++
      (if rest == 0 then [] else ["seconds=" ++ toString rest])
  "datetime.timedelta(" ++ (if parts.isEmpty then "0" else ", ".intercalate parts) ++ ")"

/-- A day as messages name it. -/
def Date.description (date : Date) : String :=
  "datetime.date(" ++ ", ".intercalate ([date.year, date.month, date.day].map toString) ++ ")"

/-- A distance from universal time as messages name it. -/
def offsetDescription (seconds : Int) : String :=
  if seconds == 0 then "datetime.timezone.utc"
  else "datetime.timezone(" ++ durationDescription seconds ++ ")"

/-- A time as messages name it: seconds and microseconds are left out when they are zero. -/
def DateTime.description (time : DateTime) : String :=
  let fraction := if time.microsecond == 0 then [] else [time.microsecond]
  let second := if time.second == 0 && fraction.isEmpty then [] else [time.second]
  let numbers :=
    [time.date.year, time.date.month, time.date.day, time.hour, time.minute] ++ second ++ fraction
  let zone := (time.offset.map fun seconds => ["tzinfo=" ++ offsetDescription seconds]).getD []
  "datetime.datetime(" ++ ", ".intercalate (numbers.map toString ++ zone) ++ ")"

/-- The wording of a calendar error. -/
def CalendarError.message : CalendarError → String
  | .year n => "year " ++ toString n ++ " is out of range"
  | .month => "month must be in 1..12"
  | .day => "day is out of range for month"
  | .hour => "hour must be in 0..23"
  | .minute => "minute must be in 0..59"
  | .second => "second must be in 0..59"
  | .offset n =>
    "offset must be a timedelta strictly between -timedelta(hours=24) and " ++
      "timedelta(hours=24), not " ++ durationDescription n ++ "."

/-- A distance from universal time, which must be shorter than a day. -/
def checkOffset (seconds : Int) : Except CalendarError Int :=
  if seconds.natAbs < daySeconds then .ok seconds else .error (.offset seconds)

end OpenApiClient.Document
