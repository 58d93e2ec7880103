import Formulae.Calendar.Duration

/-!
# Days and dates

Days of the Gregorian calendar, extended to all years, and their numbers
counted from the first day of 1970; on these, dates with the time of the day.
-/

namespace Formulae

/-- A day by its year, month and day of the month, the latter two from one. -/
structure Day where
  year : Int
  month : Nat
  day : Nat
deriving DecidableEq, Repr, Inhabited

namespace Day

/-- The first year a date can be in. -/
def minYear : Int := -262143

/-- The last year a date can be in. -/
def maxYear : Int := 262142

/-- The year has a 29th of February. -/
def isLeapYear (year : Int) : Bool :=
  year % 4 = 0 && (year % 100 ≠ 0 || year % 400 = 0)

/-- The number of days of a month. -/
def daysInMonth (year : Int) (month : Nat) : Nat :=
  match month with
  | 2 => if isLeapYear year then 29 else 28
  | 4 | 6 | 9 | 11 => 30
  | _ => 31

/-- The day exists, in a year that dates can be in. -/
def isValid (d : Day) : Bool :=
  minYear ≤ d.year && d.year ≤ maxYear && 1 ≤ d.month && d.month ≤ 12
    && 1 ≤ d.day && d.day ≤ daysInMonth d.year d.month

/-- Days from the first of March of the year zero to the first day of 1970. -/
def epochShift : Int := 719468

/-- Days in four centuries. -/
def daysPerCycle : Int := 146097

/-- The number of a day.  Years are counted from March, so that a leap day is
the last day of its year. -/
def toNumber (d : Day) : Int :=
  let year := if d.month ≤ 2 then d.year - 1 else d.year
  let month : Int := if d.month ≤ 2 then d.month + 9 else d.month - 3
  let yearOfCycle := year % 400
  let dayOfYear := (153 * month + 2) / 5 + d.day - 1
  let dayOfCycle := yearOfCycle * 365 + yearOfCycle / 4 - yearOfCycle / 100 + dayOfYear
  year / 400 * daysPerCycle + dayOfCycle - epochShift

/-- The day with a number. -/
def ofNumber (number : Int) : Day :=
  let shifted := number + epochShift
  let dayOfCycle := shifted % daysPerCycle
  let yearOfCycle :=
    (dayOfCycle - dayOfCycle / 1460 + dayOfCycle / 36524 - dayOfCycle / 146096) / 365
  let dayOfYear := dayOfCycle - (365 * yearOfCycle + yearOfCycle / 4 - yearOfCycle / 100)
  let month := (5 * dayOfYear + 2) / 153
  let year := yearOfCycle + shifted / daysPerCycle * 400
  { year := if month < 10 then year else year + 1
    month := (if month < 10 then month + 3 else month - 9).toNat
    day := (dayOfYear - (153 * month + 2) / 5 + 1).toNat }

/-- The day some months later, or earlier.  Where the month is too short its
last day is taken. -/
def addMonths (d : Day) (months : Int) : Day :=
  let total := d.year * 12 + d.month - 1 + months
  let year := total / 12
  let month := (total % 12).toNat + 1
  ⟨year, month, min d.day (daysInMonth year month)⟩

end Day

/-!
## Dates

A date is an instant with the offset from universal time it was written with.
Order, equality and difference look at the instant alone; months are added to
the date as it is written.
-/

/-- An instant, as seconds since the start of 1970 in universal time and
nanoseconds within the second, and an offset in seconds.  Leap seconds are not
counted; within one the nanoseconds go on beyond a whole second. -/
structure Date where
  seconds : Int
  nanos : Nat
  offset : Int
deriving DecidableEq, Repr, Inhabited

namespace Date

/-- Seconds in a day. -/
def daySeconds : Int := 86400

/-- Nanoseconds in a second. -/
def secondNanos : Nat := 1000000000

/-- The instant falls in a year that dates can be in. -/
def inRange (seconds : Int) : Bool :=
  let year := (Day.ofNumber (seconds / daySeconds)).year
  Day.minYear ≤ year && year ≤ Day.maxYear

/-- The seconds of the clock at the offset. -/
def localSeconds (d : Date) : Int :=
  d.seconds + d.offset

/-- The day at the offset. -/
def localDay (d : Date) : Day :=
  Day.ofNumber (d.localSeconds / daySeconds)

/-- The date with this day and second of the day at an offset, if the instant is
in range. -/
def ofLocal? (day : Day) (secondOfDay : Int) (nanos : Nat) (offset : Int) : Option Date :=
  let seconds := day.toNumber * daySeconds + secondOfDay - offset
  if inRange seconds then some ⟨seconds, nanos, offset⟩ else none

/-- The date is within a leap second. -/
def isLeapSecond (d : Date) : Bool :=
  secondNanos ≤ d.nanos

/-- Instants are ordered by time. -/
def compare (a b : Date) : Ordering :=
  (Ord.compare a.seconds b.seconds).then (Ord.compare a.nanos b.nanos)

/-- The same instant, at whatever offset. -/
def sameInstant (a b : Date) : Bool :=
  a.compare b = .eq

/-- The date some months later at the same offset and time of day. -/
def addMonths? (d : Date) (months : Int) : Option Date :=
  if months = 0 then some d
  else
    let day := d.localDay.addMonths months
    if day.isValid then ofLocal? day (d.localSeconds % daySeconds) d.nanos d.offset else none

/-- The date some seconds later.  Leaving a leap second, it counts as the second
before going forward and as the second after going back. -/
def addSeconds? (d : Date) (seconds : Int) : Option Date :=
  let moved :=
    if d.isLeapSecond && seconds ≠ 0 then
      { d with
        nanos := d.nanos - secondNanos
        seconds := (if seconds < 0 then d.seconds + 1 else d.seconds) + seconds }
    else { d with seconds := d.seconds + seconds }
  if inRange moved.seconds then some moved else none

/-- The date after a duration: months first, then seconds. -/
def add? (d : Date) (duration : Duration) : Option Date :=
  (d.addMonths? duration.months.toInt).bind fun moved => moved.addSeconds? duration.seconds.toInt

/-- The date before a duration. -/
def sub? (d : Date) (duration : Duration) : Option Date :=
  duration.neg?.bind d.add?

/-- Nanoseconds from one instant to a later one.  A leap second between two
times of day counts. -/
def nanosSince (later earlier : Date) : Int :=
  let dayTime (d : Date) := d.seconds % daySeconds
  let leap : Int :=
    if dayTime earlier < dayTime later && earlier.isLeapSecond then 1
    else if dayTime later < dayTime earlier && later.isLeapSecond then -1
    else 0
  (later.seconds - earlier.seconds + leap) * secondNanos + (later.nanos - earlier.nanos)

/-- The whole seconds between two dates, as a duration without months. -/
def between (later earlier : Date) : Duration :=
  ⟨0, Int64.ofInt ((later.nanosSince earlier).tdiv secondNanos)⟩

end Date

end Formulae
