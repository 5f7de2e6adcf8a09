import MeetingCalendar.Frequency
import MeetingCalendar.Ordinal
import MeetingCalendar.Date.Basic

/-!
# Recurrences

A recurrence says how an event repeats: every so many days, weeks, months or years, and on which
days of those weeks and months.  The interval is from 1 to 65535, and a weekly recurrence has at
least one weekday.  `Recurrence.make` refuses anything else, so every value of the type is valid.
-/

namespace MeetingCalendar

inductive MonthlyDay where
  /-- The day of the month of the first date. -/
  | sameDay
  /-- One weekday of the month, counted from its start. -/
  | nth (ordinal : Ordinal) (weekday : Weekday)
  /-- The last such weekday of the month. -/
  | last (weekday : Weekday)
  deriving DecidableEq, Repr

/-- The days on which an event repeats. -/
inductive Repeat where
  | daily
  | weekly (days : WeekdaySet)
  | monthly (day : MonthlyDay)
  | yearly
  deriving DecidableEq, Repr

def Repeat.frequency : Repeat → Frequency
  | daily => .daily
  | weekly _ => .weekly
  | monthly _ => .monthly
  | yearly => .yearly

/-- Whether the pattern has a day at all: a weekly one needs a weekday. -/
def Repeat.hasDays : Repeat → Bool
  | weekly days => !days.isEmpty
  | _ => true

/-- Why parts do not form a recurrence. -/
inductive RecurrenceError where
  | zeroInterval
  | intervalTooLarge
  | noWeekdays
  | missingFrequency
  | intervalOutOfRange (interval : Int)
  | intervalTooLargeForRule (interval : Nat)
  | mutuallyExclusive (parameter other : String)
  | requires (parameter other : String)
  | codeOutOfRange (parameter : String) (min max code : Int)
  deriving DecidableEq, Repr

def Recurrence.maxInterval : Nat := 65535

structure Recurrence where
  interval : Nat
  pattern : Repeat
  interval_pos : 0 < interval
  interval_le : interval ≤ Recurrence.maxInterval
  hasDays : pattern.hasDays = true
  deriving DecidableEq

namespace Recurrence

/-- The recurrence with the given parts, or the reason why there is none. -/
def make (interval : Nat) (pattern : Repeat) : Except RecurrenceError Recurrence :=
  if hzero : interval = 0 then .error .zeroInterval
  else if hlarge : maxInterval < interval then .error .intervalTooLarge
  else if hdays : pattern.hasDays then
    .ok ⟨interval, pattern, Nat.pos_of_ne_zero hzero, Nat.le_of_not_lt hlarge, hdays⟩
  else .error .noWeekdays

def daily (interval : Nat) : Except RecurrenceError Recurrence :=
  make interval .daily

def weekly (interval : Nat) (days : List Weekday) : Except RecurrenceError Recurrence :=
  make interval (.weekly (.ofList days))

def monthly (interval : Nat) (day : MonthlyDay) : Except RecurrenceError Recurrence :=
  make interval (.monthly day)

def yearly (interval : Nat) : Except RecurrenceError Recurrence :=
  make interval .yearly

def frequency (r : Recurrence) : Frequency :=
  r.pattern.frequency

def weekdays? (r : Recurrence) : Option WeekdaySet :=
  match r.pattern with
  | .weekly days => some days
  | _ => none

def monthlyDay? (r : Recurrence) : Option MonthlyDay :=
  match r.pattern with
  | .monthly day => some day
  | _ => none

/-- The parts of a recurrence form it. -/
@[simp]
theorem make_parts (r : Recurrence) : make r.interval r.pattern = .ok r := by
  unfold make
  rw [dif_neg (Nat.ne_of_gt r.interval_pos), dif_neg (Nat.not_lt.mpr r.interval_le),
    dif_pos r.hasDays]

end Recurrence

end MeetingCalendar
