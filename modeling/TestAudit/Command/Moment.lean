import TestAudit.Text.Quoted

namespace TestAudit

/-!
# Moments

A moment is a number of seconds since the beginning of 1970 in universal time. It
is shown as a date of the Gregorian calendar and a time of day. For the date,
years are counted from the first of March, so a leap day is the last day of its
year; four centuries of such years have 146097 days.
-/

/-- A date of the Gregorian calendar. -/
structure Date where
  year : Nat
  month : Nat
  day : Nat
  deriving Repr, DecidableEq

namespace Date

/-- The days from the first of March of the year 0 to the beginning of 1970. -/
def daysBefore1970 : Nat :=
  719468

/-- The days of four centuries. -/
def daysOfEra : Nat :=
  146097

/-- The year within four centuries in which a day lies. -/
def yearOfEra (day : Nat) : Nat :=
  (day - day / 1460 + day / 36524 - day / 146096) / 365

/-- The date that is a number of days after the beginning of 1970. -/
def ofDays (days : Nat) : Date :=
  let shifted := days + daysBefore1970
  let dayOfEra := shifted % daysOfEra
  let year := yearOfEra dayOfEra
  let dayOfYear := dayOfEra - (365 * year + year / 4 - year / 100)
  let monthFromMarch := (5 * dayOfYear + 2) / 153
  let month := if monthFromMarch < 10 then monthFromMarch + 3 else monthFromMarch - 9
  {
    year := year + 400 * (shifted / daysOfEra) + if month ≤ 2 then 1 else 0
    month
    day := dayOfYear - (153 * monthFromMarch + 2) / 5 + 1
  }

/-- A date as year, month and day. -/
def toText (date : Date) : Text :=
  Text.joinWith ['-'] [
    Text.padZeros 4 (Text.ofNat date.year),
    Text.padZeros 2 (Text.ofNat date.month),
    Text.padZeros 2 (Text.ofNat date.day)]

end Date

namespace Moment

/-- A time of day, given in seconds, as hours, minutes and seconds. -/
def timeText (seconds : Nat) : Text :=
  Text.joinWith [':'] [
    Text.padZeros 2 (Text.ofNat (seconds / 3600)),
    Text.padZeros 2 (Text.ofNat (seconds / 60 % 60)),
    Text.padZeros 2 (Text.ofNat (seconds % 60))]

/-- A moment as date and time of day. -/
def toText (seconds : Nat) : Text :=
  (Date.ofDays (seconds / 86400)).toText ++ ' ' :: timeText (seconds % 86400)

/-- A moment as reports show it. -/
def reportText (seconds : Nat) : Text :=
  toText seconds ++ " UTC"

end Moment

end TestAudit
