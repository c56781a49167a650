import Classpath.Text.Numeral

/-! # Dates and times

The calendar values that a settings file or a snapshot document may hold: a date, a time of day, or
both together with an optional offset from universal time. They are written in two ways, as a
constructor form inside a message and in the usual order of fields inside a name.
-/

namespace Classpath

/-- A day of the calendar. -/
structure Date where
  year : Nat
  month : Nat
  day : Nat
deriving DecidableEq, Repr

/-- A time of day. -/
structure Clock where
  hour : Nat
  minute : Nat
  second : Nat
  microsecond : Nat
deriving DecidableEq, Repr

/-- A calendar value. An offset counts seconds east of universal time. -/
inductive Moment where
  | date (day : Date)
  | time (clock : Clock)
  | dateTime (day : Date) (clock : Clock) (offset : Option Int)
deriving DecidableEq, Repr

namespace Date

/-- Whether a year has a leap day. -/
def isLeap (year : Nat) : Bool :=
  year % 4 == 0 && (year % 100 != 0 || year % 400 == 0)

/-- The days of a month. -/
def daysIn (year month : Nat) : Nat :=
  if month = 2 then (if isLeap year then 29 else 28)
  else if month = 4 || month = 6 || month = 9 || month = 11 then 30
  else 31

/-- The number of a day, counted from the first day of the year 1. -/
def ordinal (d : Date) : Nat :=
  let years := d.year - 1
  let months := (List.range (d.month - 1)).foldl (fun days m => days + daysIn d.year (m + 1)) 0
  years * 365 + years / 4 - years / 100 + years / 400 + months + d.day

/-- The fields of a day, the weightiest first. -/
def fields (d : Date) : List Nat :=
  [d.year, d.month, d.day]

/-- The date exists, in the years 1 to 9999. -/
def valid (d : Date) : Bool :=
  1 ≤ d.year && d.year ≤ 9999 && 1 ≤ d.month && d.month ≤ 12 && 1 ≤ d.day &&
    d.day ≤ daysIn d.year d.month

end Date

/-- The fields of a time of day, the weightiest first. -/
def Clock.fields (c : Clock) : List Nat :=
  [c.hour, c.minute, c.second, c.microsecond]

/-- The microseconds since midnight. -/
def Clock.elapsed (c : Clock) : Nat :=
  ((c.hour * 60 + c.minute) * 60 + c.second) * 1000000 + c.microsecond

/-- The time exists. -/
def Clock.valid (c : Clock) : Bool :=
  c.hour ≤ 23 && c.minute ≤ 59 && c.second ≤ 59 && c.microsecond ≤ 999999

namespace Moment

/-- The microseconds of universal time that a date and a time of day with an offset stand for. -/
def instant (d : Date) (c : Clock) (offset : Int) : Int :=
  (d.ordinal * 86400 - offset) * 1000000 + c.elapsed

/-- The same date, time of day or point in time. Without an offset no point in time is known. -/
def same : Moment → Moment → Bool
  | .dateTime d c (some o), .dateTime d' c' (some o') => instant d c o == instant d' c' o'
  | a, b => a == b

open Text in
/-- Year, month and day with dashes. -/
def dateText (d : Date) : String :=
  padded 4 d.year ++ "-" ++ padded 2 d.month ++ "-" ++ padded 2 d.day

open Text in
/-- Hour, minute and second with colons, and the microseconds unless they are zero. -/
def clockText (c : Clock) : String :=
  padded 2 c.hour ++ ":" ++ padded 2 c.minute ++ ":" ++ padded 2 c.second ++
    (if c.microsecond = 0 then "" else "." ++ padded 6 c.microsecond)

open Text in
/-- An offset as sign, hours and minutes, and the seconds unless they are zero. -/
def offsetText (offset : Int) : String :=
  let n := offset.natAbs
  (if offset < 0 then "-" else "+") ++ padded 2 (n / 3600) ++ ":" ++ padded 2 (n / 60 % 60) ++
    (if n % 60 = 0 then "" else ":" ++ padded 2 (n % 60))

/-- The form of a moment inside a name. -/
def text : Moment → String
  | .date d => dateText d
  | .time c => clockText c
  | .dateTime d c offset => dateText d ++ " " ++ clockText c ++ (offset.map offsetText).getD ""

/-- The fields of a time of day that its constructor form shows. -/
def clockFields (c : Clock) : List Nat :=
  [c.hour, c.minute] ++
    (if c.microsecond ≠ 0 then [c.second, c.microsecond]
    else if c.second ≠ 0 then [c.second] else [])

/-- The constructor form of a span of seconds other than zero: whole days and the seconds above
them. -/
def durationWritten (span : Int) : String :=
  let days := span / 86400
  let seconds := span % 86400
  let fields :=
    (if days = 0 then [] else ["days=" ++ Text.ofInt days]) ++
      (if seconds = 0 then [] else ["seconds=" ++ Text.ofInt seconds])
  "datetime.timedelta(" ++ String.intercalate ", " fields ++ ")"

/-- The constructor form of an offset. -/
def offsetWritten (offset : Int) : String :=
  if offset = 0 then "datetime.timezone.utc"
  else "datetime.timezone(" ++ durationWritten offset ++ ")"

/-- The constructor form of a moment. -/
def written : Moment → String
  | .date d =>
    "datetime.date(" ++ String.intercalate ", " ([d.year, d.month, d.day].map toString) ++ ")"
  | .time c => "datetime.time(" ++ String.intercalate ", " ((clockFields c).map toString) ++ ")"
  | .dateTime d c offset =>
    let fields := ([d.year, d.month, d.day] ++ clockFields c).map toString
    let zone := (offset.map fun o => ["tzinfo=" ++ offsetWritten o]).getD []
    "datetime.datetime(" ++ String.intercalate ", " (fields ++ zone) ++ ")"

end Moment

end Classpath
