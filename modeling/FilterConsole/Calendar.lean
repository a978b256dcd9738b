import FilterConsole.Timestamp
import FilterConsole.Text.Decimal

/-! The proleptic Gregorian calendar in UTC: days to dates and back, the instants that have a date, and their text.
A year of the count starts in March, so that a leap day is the last of its year. -/

namespace FilterConsole

structure Date where
  year : Int
  month : Nat
  day : Nat
  deriving DecidableEq, Repr

/-- Days in 400 years. -/
def daysPerEra : Nat := 146097

/-- The date `n` days after 1970-01-01. -/
def Date.ofDayNumber (n : Int) : Date :=
  let shifted := n + 719468
  let era := shifted / daysPerEra
  let dayOfEra := (shifted % daysPerEra).toNat
  let yearOfEra := (dayOfEra - dayOfEra / 1460 + dayOfEra / 36524 - dayOfEra / 146096) / 365
  let dayOfYear := dayOfEra - (365 * yearOfEra + yearOfEra / 4 - yearOfEra / 100)
  let shiftedMonth := (5 * dayOfYear + 2) / 153
  let month := if shiftedMonth < 10 then shiftedMonth + 3 else shiftedMonth - 9
  { year := era * 400 + yearOfEra + (if month ≤ 2 then 1 else 0)
    month
    day := dayOfYear - (153 * shiftedMonth + 2) / 5 + 1 }

def Date.dayNumber (d : Date) : Int :=
  let year := if d.month ≤ 2 then d.year - 1 else d.year
  let era := year / 400
  let yearOfEra := (year % 400).toNat
  let shiftedMonth := if d.month ≤ 2 then d.month + 9 else d.month - 3
  let dayOfYear := (153 * shiftedMonth + 2) / 5 + d.day - 1
  era * daysPerEra + ((365 * yearOfEra + yearOfEra / 4 - yearOfEra / 100 + dayOfYear : Nat) : Int) - 719468

/-- A date and a time of day; second 60 is a leap second. -/
structure Moment where
  date : Date
  hour : Nat
  minute : Nat
  second : Nat
  deriving DecidableEq, Repr

/-- Four digits at least, with a sign outside the years 0 to 9999. -/
def yearText (year : Int) : String :=
  if year < 0 then "-" ++ paddedNumeral 4 year.natAbs
  else if 9999 < year then "+" ++ numeral year.natAbs
  else paddedNumeral 4 year.natAbs

def Moment.text (m : Moment) : String :=
  yearText m.date.year ++ "-" ++ paddedNumeral 2 m.date.month ++ "-" ++ paddedNumeral 2 m.date.day ++ " " ++
    paddedNumeral 2 m.hour ++ ":" ++ paddedNumeral 2 m.minute ++ ":" ++ paddedNumeral 2 m.second ++ " UTC"

namespace Timestamp

/-- The calendar holds the instants from the first to the last of these seconds. -/
def firstSecond : Int := -8334601228800

def lastSecond : Int := 8210266876799

/-- A second or more of nanoseconds is a leap second, which only the last second of a minute has. -/
def inCalendar (t : Timestamp) : Bool :=
  firstSecond ≤ t.secs.toInt && t.secs.toInt ≤ lastSecond &&
    (t.nanos.toNat < 1000000000 || (t.nanos.toNat < 2000000000 && t.secs.toInt % 60 == 59))

def moment (t : Timestamp) : Moment :=
  let ofDay := (t.secs.toInt % 86400).toNat
  { date := Date.ofDayNumber (t.secs.toInt / 86400)
    hour := ofDay / 3600
    minute := ofDay / 60 % 60
    second := ofDay % 60 + t.nanos.toNat / 1000000000 }

/-- The date and time where the calendar has them, and the bare numbers elsewhere. -/
def text (t : Timestamp) : String :=
  if t.inCalendar then t.moment.text
  else signedNumeral t.secs.toInt ++ "." ++ paddedNumeral 9 t.nanos.toNat ++ "s"

end Timestamp

end FilterConsole
