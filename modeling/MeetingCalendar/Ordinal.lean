import MeetingCalendar.Coded

/-!
# Ordinals of weekdays

The place of a weekday among the days of the same name in its month, as in "the second Tuesday".
-/

namespace MeetingCalendar

/-- The place of a weekday among those of the same name in a month. -/
inductive Ordinal where
  | first
  | second
  | third
  | fourth
  | fifth
  deriving DecidableEq, Repr, Inhabited

namespace Ordinal

def number : Ordinal → Nat
  | first => 1
  | second => 2
  | third => 3
  | fourth => 4
  | fifth => 5

def name : Ordinal → String
  | first => "first"
  | second => "second"
  | third => "third"
  | fourth => "fourth"
  | fifth => "fifth"

def ofNumber? : Nat → Option Ordinal
  | 1 => some first
  | 2 => some second
  | 3 => some third
  | 4 => some fourth
  | 5 => some fifth
  | _ => none

/-- The ordinal of the weekday that falls on a day of the month. -/
def ofDay? : Nat → Option Ordinal
  | 0 => none
  | day + 1 => ofNumber? (day / 7 + 1)

/-- Requests may ask for the first four places only. -/
instance : Coded Ordinal where
  minCode := 1
  maxCode := 4
  ofCode? n := if 0 ≤ n then ofNumber? n.toNat else none
  code o := o.number

end Ordinal

end MeetingCalendar
