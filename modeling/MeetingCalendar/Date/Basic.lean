import MeetingCalendar.Weekday

/-!
# Dates

Days of the Gregorian calendar, extended to all years from -262143 to 262142; the year before year 1
is year 0.  Every date has a day number, which counts days from the last day of year 0, and dates
are ordered by it.  Day number 1, the first day of year 1, is a Monday.
-/

namespace MeetingCalendar

def isLeapYear (year : Int) : Bool :=
  year % 4 == 0 && (year % 100 != 0 || year % 400 == 0)

def daysInMonth (year : Int) (month : Nat) : Nat :=
  if month = 2 then (if isLeapYear year then 29 else 28)
  else if month = 4 ∨ month = 6 ∨ month = 9 ∨ month = 11 then 30
  else 31

/-- The number of days from the start of year 1 to the start of a year. -/
def daysBeforeYear (year : Int) : Int :=
  365 * (year - 1) + (year - 1) / 4 - (year - 1) / 100 + (year - 1) / 400

def daysBeforeMonth (year : Int) : Nat → Nat
  | 0 => 0
  | 1 => 0
  | month + 2 => daysBeforeMonth year (month + 1) + daysInMonth year (month + 1)

/-- The first year that dates are made for. -/
def minYear : Int := -262143

def maxYear : Int := 262142

structure Date where
  year : Int
  month : Nat
  day : Nat
  minYear_le : minYear ≤ year
  le_maxYear : year ≤ maxYear
  month_pos : 1 ≤ month
  month_le : month ≤ 12
  day_pos : 1 ≤ day
  day_le : day ≤ daysInMonth year month
  deriving DecidableEq, Repr

namespace Date

def ofParts? (year : Int) (month day : Nat) : Option Date :=
  if h : (minYear ≤ year ∧ year ≤ maxYear) ∧ (1 ≤ month ∧ month ≤ 12) ∧
      (1 ≤ day ∧ day ≤ daysInMonth year month) then
    some ⟨year, month, day, h.1.1, h.1.2, h.2.1.1, h.2.1.2, h.2.2.1, h.2.2.2⟩
  else none

def first : Date :=
  ⟨minYear, 1, 1, by decide, by decide, by decide, by decide, by decide, by decide⟩

def last : Date :=
  ⟨maxYear, 12, 31, by decide, by decide, by decide, by decide, by decide, by decide⟩

instance : Inhabited Date := ⟨first⟩

/-- The number of a day, from 1 for the first day of year 1. -/
def dayNumber (d : Date) : Int :=
  daysBeforeYear d.year + daysBeforeMonth d.year d.month + d.day

def yearOfDayNumber (n : Int) : Int :=
  -- The average length of a year gives it but for one year.
  let guess := 400 * (n - 1) / 146097 + 1
  if n ≤ daysBeforeYear guess then guess - 1
  else if daysBeforeYear (guess + 1) < n then guess + 1
  else guess

/-- The month that holds the `n`-th day of a year and the day's place in it, searched from `month`
on; `n` counts from the start of `month`, and `months` more months may follow. -/
def monthAndDay (year : Int) (months month n : Nat) : Nat × Nat :=
  match months with
  | 0 => (month, n)
  | months + 1 =>
    if n ≤ daysInMonth year month then (month, n)
    else monthAndDay year months (month + 1) (n - daysInMonth year month)

def ofDayNumber? (n : Int) : Option Date :=
  let year := yearOfDayNumber n
  let (month, day) := monthAndDay year 11 1 (n - daysBeforeYear year).toNat
  ofParts? year month day

def addDays? (d : Date) (n : Int) : Option Date :=
  ofDayNumber? (d.dayNumber + n)

/-- The next day; there is none after the last date. -/
def next? (d : Date) : Option Date :=
  d.addDays? 1

def weekday (d : Date) : Weekday :=
  Weekday.ofIndex ((d.dayNumber - 1) % 7).toNat

instance : LE Date := ⟨fun a b ↦ a.dayNumber ≤ b.dayNumber⟩

instance : LT Date := ⟨fun a b ↦ a.dayNumber < b.dayNumber⟩

instance (a b : Date) : Decidable (a ≤ b) :=
  inferInstanceAs (Decidable (a.dayNumber ≤ b.dayNumber))

instance (a b : Date) : Decidable (a < b) :=
  inferInstanceAs (Decidable (a.dayNumber < b.dayNumber))

def earlier (a b : Date) : Date :=
  if b < a then b else a

theorem le_iff {a b : Date} : a ≤ b ↔ a.dayNumber ≤ b.dayNumber :=
  Iff.rfl

theorem lt_iff {a b : Date} : a < b ↔ a.dayNumber < b.dayNumber :=
  Iff.rfl

/-- The parts of a date name it. -/
@[simp]
theorem ofParts?_parts (d : Date) : ofParts? d.year d.month d.day = some d := by
  unfold ofParts?
  rw [dif_pos ⟨⟨d.minYear_le, d.le_maxYear⟩, ⟨d.month_pos, d.month_le⟩, d.day_pos, d.day_le⟩]

/-- A date made from parts has them. -/
theorem parts_of_ofParts? {year : Int} {month day : Nat} {d : Date}
    (h : ofParts? year month day = some d) : d.year = year ∧ d.month = month ∧ d.day = day := by
  unfold ofParts? at h
  split at h
  · cases h
    exact ⟨rfl, rfl, rfl⟩
  · exact absurd h nofun

end Date

end MeetingCalendar
