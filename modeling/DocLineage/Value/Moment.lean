/-!
# Dates and times

Calendar values that a configuration or a dump in the indentation format may hold. They are data
to be shown; only where two of them are compared does the instant matter that they stand for.

## Main definitions

* `TimeOfDay`, `Moment` — a time with an optional offset, and a date with an optional time
* `Moment.text` — the plain text of a moment
* `Moment.instant?` — the instant that a moment with an offset stands for
* `Moment.Defect`, `Moment.defect?` — what makes the numbers of a moment impossible
-/

namespace DocLineage

/-- A time of day; `offset` is the distance from universal time in minutes. -/
structure TimeOfDay where
  hour : Nat
  minute : Nat
  second : Nat
  microsecond : Nat := 0
  offset : Option Int := none
deriving DecidableEq, Repr

/-- A calendar date, with a time of day if there is one. -/
structure Moment where
  year : Nat
  month : Nat
  day : Nat
  time : Option TimeOfDay := none
deriving DecidableEq, Repr

/-- Decimal digits padded with zeros on the left. -/
def padded (width n : Nat) : String :=
  let digits := Nat.toDigits 10 n
  String.ofList (List.replicate (width - digits.length) '0' ++ digits)

namespace TimeOfDay

/-- An offset in hours and minutes with its sign. -/
def offsetText (minutes : Int) : String :=
  (if minutes < 0 then "-" else "+") ++ padded 2 (minutes.natAbs / 60) ++ ":" ++
    padded 2 (minutes.natAbs % 60)

/-- The time in hours, minutes and seconds, a fraction only when it is not zero. -/
def text (t : TimeOfDay) : String :=
  padded 2 t.hour ++ ":" ++ padded 2 t.minute ++ ":" ++ padded 2 t.second ++
    (if t.microsecond == 0 then "" else "." ++ padded 6 t.microsecond) ++
    (t.offset.map offsetText).getD ""

/-- A span of time as it is shown inside a compound value: whole days, then the seconds left. -/
def spanDisplay (minutes : Int) : String :=
  let seconds := minutes * 60
  let days := seconds.fdiv 86400
  let rest := seconds.fmod 86400
  let parts :=
    (if days == 0 then [] else ["days=" ++ toString days]) ++
      (if rest == 0 then [] else ["seconds=" ++ toString rest])
  "datetime.timedelta(" ++ (if parts.isEmpty then "0" else ", ".intercalate parts) ++ ")"

/-- The offset as it is shown inside a compound value. -/
def offsetDisplay (minutes : Int) : String :=
  if minutes == 0 then "datetime.timezone.utc"
  else "datetime.timezone(" ++ spanDisplay minutes ++ ")"

end TimeOfDay

namespace Moment

/-- The plain text: the date, and after a blank the time. -/
def text (m : Moment) : String :=
  padded 4 m.year ++ "-" ++ padded 2 m.month ++ "-" ++ padded 2 m.day ++
    match m.time with
    | none => ""
    | some t => " " ++ t.text

/-- The moment as it is shown inside a compound value: its numbers in order, seconds and
microseconds left out when they and all that follow are zero. -/
def display (m : Moment) : String :=
  let date := [m.year, m.month, m.day]
  match m.time with
  | none => "datetime.date(" ++ ", ".intercalate (date.map toString) ++ ")"
  | some t =>
    let fine :=
      if t.microsecond != 0 then [t.second, t.microsecond]
      else if t.second != 0 then [t.second] else []
    let numbers := (date ++ [t.hour, t.minute] ++ fine).map toString
    let zone := t.offset.toList.map fun z => "tzinfo=" ++ TimeOfDay.offsetDisplay z
    "datetime.datetime(" ++ ", ".intercalate (numbers ++ zone) ++ ")"

/-- Which number of a moment is out of range. -/
inductive Defect where
  | year (n : Nat)
  | month
  | day
  | hour
  | minute
  | second
  | offset (minutes : Int)
deriving DecidableEq, Repr

/-- A year of the Gregorian calendar with a twenty-ninth of February. -/
def isLeapYear (year : Nat) : Bool :=
  year % 4 == 0 && (year % 100 != 0 || year % 400 == 0)

/-- The number of days of a month. -/
def monthLength (year month : Nat) : Nat :=
  if month == 2 then (if isLeapYear year then 29 else 28)
  else if month == 4 || month == 6 || month == 9 || month == 11 then 30
  else 31

/-- The number of days before a year, counted from the start of the first one. -/
def daysBeforeYear (year : Nat) : Nat :=
  let whole := year - 1
  whole * 365 + whole / 4 - whole / 100 + whole / 400

/-- The number of a date among all days. -/
def dayNumber (m : Moment) : Nat :=
  let beforeMonth := (List.range (m.month - 1)).foldl
    (fun days k => days + monthLength m.year (k + 1)) 0
  daysBeforeYear m.year + beforeMonth + m.day

/-- The instant that a moment with an offset stands for, in microseconds. -/
def instant? (m : Moment) : Option Int := do
  let t ← m.time
  let offset ← t.offset
  let minutes : Int := (m.dayNumber * 24 + t.hour) * 60 + t.minute
  return ((minutes - offset) * 60 + t.second) * 1000000 + t.microsecond

/-- The first number of a date that is out of range. -/
def dateDefect? (m : Moment) : Option Defect :=
  if m.year < 1 || 9999 < m.year then some (.year m.year)
  else if m.month < 1 || 12 < m.month then some .month
  else if m.day < 1 || monthLength m.year m.month < m.day then some .day
  else none

/-- The first number of a moment that is out of range, the offset before the date and the date
before the time. -/
def defect? (m : Moment) : Option Defect :=
  match m.time with
  | none => m.dateDefect?
  | some t =>
    (t.offset.bind fun z => if z.natAbs < 1440 then none else some (.offset z)) <|>
      m.dateDefect? <|>
      (if 23 < t.hour then some .hour
       else if 59 < t.minute then some .minute
       else if 59 < t.second then some .second
       else none)

end Moment

end DocLineage
