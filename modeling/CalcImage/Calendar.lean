import CalcImage.Fault
import CalcImage.Word

/-!
# The calendar

Moments are counted in seconds from the beginning of 1970. A moment is read as a date and a time of day in the Gregorian
calendar, carried on backwards and forwards without end, with astronomical years. The calendar repeats after 400 years,
that is 146097 days; a year is counted from March, so that a leap day ends it. A host counts moments and years in words of
fixed size, and what does not fit has no local time.
-/

namespace CalcImage

/-- A date and a time of day. -/
structure DateTime where
  year : Int
  month : Int
  day : Int
  hour : Int
  minute : Int
  second : Int
  deriving DecidableEq, Repr

namespace Calendar

/-- Seconds in a day. -/
def daySeconds : Int := 86400

/-- The date of a day, counted from the first day of 1970: year, month and day. -/
def dateOfDay (day : Int) : Int × Int × Int :=
  let fromMarch := day + 719468
  let era := fromMarch / 146097
  let dayOfEra := fromMarch % 146097
  let yearOfEra := (dayOfEra - dayOfEra / 1460 + dayOfEra / 36524 - dayOfEra / 146096) / 365
  let dayOfYear := dayOfEra - (365 * yearOfEra + yearOfEra / 4 - yearOfEra / 100)
  let month := (5 * dayOfYear + 2) / 153
  let dayOfMonth := dayOfYear - (153 * month + 2) / 5 + 1
  if month < 10 then (400 * era + yearOfEra, month + 3, dayOfMonth)
  else (400 * era + yearOfEra + 1, month - 9, dayOfMonth)

/-- The date and the time of day of a moment. -/
def ofSeconds (t : Int) : DateTime :=
  let (year, month, day) := dateOfDay (t / daySeconds)
  let s := t % daySeconds
  ⟨year, month, day, s / 3600, s % 3600 / 60, s % 60⟩

/-- The offset of a zone, counted westwards, when it lies `east` seconds east of Greenwich. -/
def westOffset (east : Int) : Int := -east

/-- A year that dates are written in. -/
def inRange (year : Int) : Bool := 1 ≤ year && year ≤ 9999

/-- A year that the host can count: its distance from 1900 is a word of 32 bits. -/
def isCounted (year : Int) : Bool := Word.fits 32 (year - 1900)

/-- The date and the time of day of a moment in a zone `east` seconds east of Greenwich. The moment has to be a word of 64
bits, and the host has to count its year both in Greenwich and in the zone. The year in the zone has to be in range, and so
has the year of the moment a day earlier, against which a change of the clock would be noticed. -/
def localTime (east time : Int) : Except Fault DateTime :=
  let d := ofSeconds (time + east)
  let dayBefore := ofSeconds (time + east - daySeconds)
  if !Word.fits 64 time then .error .momentWidth
  else if !(isCounted (ofSeconds time).year && isCounted d.year) then .error .yearWidth
  else if !inRange d.year then .error (.yearRange (Word.wrap 32 d.year))
  else if !inRange dayBefore.year then .error (.yearRange dayBefore.year)
  else .ok d

end Calendar

namespace DateTime

open CalcImage.Text

/-- A date as month, day and the last two digits of the year, and a time of day. -/
def short (d : DateTime) : String :=
  zeroFilled 2 d.month ++ "/" ++ zeroFilled 2 d.day ++ "/" ++ zeroFilled 2 (d.year % 100) ++ " " ++
    zeroFilled 2 d.hour ++ ":" ++ zeroFilled 2 d.minute ++ ":" ++ zeroFilled 2 d.second

/-- A date from the year down to the day, and a time of day. -/
def long (d : DateTime) : String :=
  zeroFilled 4 d.year ++ "-" ++ zeroFilled 2 d.month ++ "-" ++ zeroFilled 2 d.day ++ " " ++
    zeroFilled 2 d.hour ++ ":" ++ zeroFilled 2 d.minute ++ ":" ++ zeroFilled 2 d.second

end DateTime

end CalcImage
