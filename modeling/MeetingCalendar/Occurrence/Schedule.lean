import MeetingCalendar.Recurrence.Basic
import MeetingCalendar.Window

/-!
# Schedules

A schedule is a recurrence that starts on a date, its seed.  Time is cut into numbered units: days,
weeks from Monday, months or years, as the recurrence counts.  The schedule visits the seed's unit
and from there every unit that is a multiple of the interval away, and each visited unit gives the
dates that the repeat pattern selects in it.  No date comes before the seed.

The visits end at the end of the calendar: the schedule does not enter a new year that is outside
-10000 to 10000.  Between two visits days and weeks are counted through every year, while months and
years are jumped over.  Within the year of the seed the schedule moves on in any case, so a seed in
a later year still gives the dates of that year.  A monthly schedule ends as well when the month
number and the interval together exceed 65535.
-/

namespace MeetingCalendar

namespace Frequency

/-- The number of the unit that holds a date. -/
def unitOf (f : Frequency) (d : Date) : Int :=
  match f with
  | daily => d.dayNumber
  | weekly => (d.dayNumber - 1) / 7
  | monthly => 12 * d.year + d.month - 1
  | yearly => d.year

def yearOfUnit (f : Frequency) (unit : Int) : Int :=
  match f with
  | daily => Date.yearOfDayNumber unit
  | weekly => Date.yearOfDayNumber (7 * unit + 1)
  | monthly => unit / 12
  | yearly => unit

end Frequency

/-- The day of a month that a monthly recurrence selects, if the month has it; `seedDay` is the day
of the month of the seed. -/
def MonthlyDay.dateIn? (choice : MonthlyDay) (seedDay : Nat) (year : Int) (month : Nat) :
    Option Date :=
  let before := daysBeforeYear year + daysBeforeMonth year month
  let length := daysInMonth year month
  match choice with
  | sameDay => Date.ofParts? year month seedDay
  | nth ordinal weekday =>
    let offset := ((weekday.index - before) % 7).toNat
    Date.ofParts? year month (1 + offset + 7 * (ordinal.number - 1))
  | last weekday =>
    let back := ((before + length - 1 - weekday.index) % 7).toNat
    Date.ofParts? year month (length - back)

/-- The dates that a repeat pattern selects in a unit, in order. -/
def Repeat.datesIn (pattern : Repeat) (seed : Date) (unit : Int) : List Date :=
  match pattern with
  | daily => (Date.ofDayNumber? unit).toList
  | weekly days => days.toList.filterMap fun w ↦ Date.ofDayNumber? (7 * unit + 1 + w.index)
  | monthly choice => (choice.dateIn? seed.day (unit / 12) ((unit % 12).toNat + 1)).toList
  | yearly => (Date.ofParts? unit seed.month seed.day).toList

/-- A recurrence that starts on a date. -/
structure Schedule where
  recurrence : Recurrence
  seed : Date

namespace Schedule

/-- The first year that a schedule can enter. -/
def minYear : Int := -10000

def maxYear : Int := 10000

/-- The greatest sum of a month number and an interval with which a monthly schedule moves on. -/
def maxMonthCount : Int := 65535

def frequency (s : Schedule) : Frequency :=
  s.recurrence.frequency

def interval (s : Schedule) : Int :=
  s.recurrence.interval

def firstUnit (s : Schedule) : Int :=
  s.frequency.unitOf s.seed

/-- The unit of the `k`-th visit, counted from zero. -/
def unitAt (s : Schedule) (k : Nat) : Int :=
  s.firstUnit + s.interval * k

def yearAt (s : Schedule) (k : Nat) : Int :=
  if k = 0 then s.seed.year else s.frequency.yearOfUnit (s.unitAt k)

/-- The first visit to the given unit or a later one. -/
def visitFrom (s : Schedule) (unit : Int) : Nat :=
  ((unit - s.firstUnit + s.interval - 1) / s.interval).toNat

/-- Whether a monthly schedule moves on from each of its first `k` visits. -/
def monthsCount (s : Schedule) (k : Nat) : Bool :=
  s.frequency != .monthly || s.interval + 12 ≤ maxMonthCount ||
    (List.range k).all fun j ↦ s.unitAt j % 12 + 1 + s.interval ≤ maxMonthCount

/-- The first year besides that of the seed that the schedule enters. -/
def firstNewYear (s : Schedule) : Int :=
  match s.frequency with
  | .daily => s.seed.year + 1
  | .weekly => s.seed.year + 1
  | .monthly => s.yearAt (s.visitFrom (12 * (s.seed.year + 1)))
  | .yearly => s.yearAt 1

/-- Whether the schedule gets as far as the `k`-th visit: the visit is in the year of the seed, or
all years that the schedule enters up to the visit are in range. -/
def reaches (s : Schedule) (k : Nat) : Bool :=
  s.yearAt k == s.seed.year ||
    (minYear ≤ s.firstNewYear && s.yearAt k ≤ maxYear && s.monthsCount k)

def datesAt (s : Schedule) (k : Nat) : List Date :=
  (s.recurrence.pattern.datesIn s.seed (s.unitAt k)).filter fun d ↦ s.seed ≤ d

/-- At most `limit` dates in a window, from `visits` visits on from the `k`-th. -/
def datesFrom (s : Schedule) (window : Window) (visits k limit : Nat) : List Date :=
  match visits with
  | 0 => []
  | visits + 1 =>
    if limit = 0 || !s.reaches k then []
    else
      let found := ((s.datesAt k).filter window.contains).take limit
      found ++ s.datesFrom window visits (k + 1) (limit - found.length)

/-- The first `limit` dates in a window.  Visits that end before the window are skipped, and those
that start behind it are not made. -/
def firstDates (s : Schedule) (window : Window) (limit : Nat) : List Date :=
  let k := s.visitFrom (s.frequency.unitOf window.start)
  let visits := ((s.frequency.unitOf window.stop - s.unitAt k) / s.interval + 1).toNat
  s.datesFrom window visits k limit

end Schedule

end MeetingCalendar
