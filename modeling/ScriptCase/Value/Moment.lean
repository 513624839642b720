import ScriptCase.Value.Double

/-!
# Dates and times

Settings files may hold dates, times of day and date-times. Fractions of a second are kept to the microsecond and
offsets to the minute. There are two texts for each: the plain one (`text`) and the one that shows the parts
(`detailed`).
-/

namespace ScriptCase

/-- A day of the calendar. -/
structure Date where
  year : Nat
  month : Nat
  day : Nat
  deriving DecidableEq, Repr

/-- A time of day. -/
structure TimeOfDay where
  hour : Nat
  minute : Nat
  second : Nat
  micro : Nat
  deriving DecidableEq, Repr

/-- A date, a time, or both together, with the distance to universal time in minutes if it is given. -/
inductive Moment where
  | date (d : Date)
  | time (t : TimeOfDay)
  | dateTime (d : Date) (t : TimeOfDay) (offset : Option Int)
  deriving DecidableEq, Repr

open Double (padded)

/-- The year is divisible by 4, but by 100 only if by 400. -/
def Date.isLeap (year : Nat) : Bool := year % 4 == 0 && (year % 100 != 0 || year % 400 == 0)

/-- The number of days of a month. -/
def Date.daysIn (year month : Nat) : Nat :=
  if month == 2 then (if Date.isLeap year then 29 else 28)
  else if month == 4 || month == 6 || month == 9 || month == 11 then 30
  else 31

/-- The day exists; years count from 1. -/
def Date.isValid (d : Date) : Bool :=
  1 ≤ d.year && 1 ≤ d.month && d.month ≤ 12 && 1 ≤ d.day && d.day ≤ Date.daysIn d.year d.month

/-- Year, month and day with hyphens between them. -/
def Date.text (d : Date) : String := padded 4 d.year ++ "-" ++ padded 2 d.month ++ "-" ++ padded 2 d.day

/-- Hours, minutes and seconds, and six digits of a fraction that is not zero. -/
def TimeOfDay.text (t : TimeOfDay) : String :=
  padded 2 t.hour ++ ":" ++ padded 2 t.minute ++ ":" ++ padded 2 t.second
    ++ (if t.micro == 0 then "" else "." ++ padded 6 t.micro)

/-- A distance to universal time as sign, hours and minutes. -/
def Moment.offsetText (minutes : Int) : String :=
  (if minutes < 0 then "-" else "+") ++ padded 2 (minutes.natAbs / 60) ++ ":" ++ padded 2 (minutes.natAbs % 60)

/-- The moment with `separator` between date and time. -/
def Moment.textWith (separator : String) : Moment → String
  | .date d => d.text
  | .time t => t.text
  | .dateTime d t offset => d.text ++ separator ++ t.text ++ (offset.map Moment.offsetText).getD ""

/-- The moment as plain text. -/
def Moment.text (m : Moment) : String := m.textWith " "

/-- The moment with the mark that the standard puts between date and time. -/
def Moment.standardText (m : Moment) : String := m.textWith "T"

/-- The parts of a time of day; zero seconds and fractions at the end are left out. -/
def TimeOfDay.parts (t : TimeOfDay) : List Nat :=
  [t.hour, t.minute] ++ (if t.micro != 0 then [t.second, t.micro] else if t.second != 0 then [t.second] else [])

/-- A distance to universal time, shown by its parts: whole days and the seconds that remain. -/
def Moment.offsetDetailed (minutes : Int) : String :=
  if minutes == 0 then "datetime.timezone.utc" else
  let seconds := minutes * 60
  let days := seconds.fdiv 86400
  let rest := seconds.fmod 86400
  let parts := (if days == 0 then [] else ["days=" ++ toString days])
    ++ (if rest == 0 then [] else ["seconds=" ++ toString rest])
  "datetime.timezone(datetime.timedelta(" ++ ", ".intercalate parts ++ "))"

/-- The moment, shown by its parts. -/
def Moment.detailed : Moment → String
  | .date d => "datetime.date(" ++ ", ".intercalate ([d.year, d.month, d.day].map toString) ++ ")"
  | .time t => "datetime.time(" ++ ", ".intercalate (t.parts.map toString) ++ ")"
  | .dateTime d t offset =>
    let parts := ([d.year, d.month, d.day] ++ t.parts).map toString
      ++ (offset.map fun o => "tzinfo=" ++ Moment.offsetDetailed o).toList
    "datetime.datetime(" ++ ", ".intercalate parts ++ ")"

end ScriptCase
