import MeetingCalendar.Coded

/-!
# Frequencies

How often an event repeats: every so many days, weeks, months or years.
-/

namespace MeetingCalendar

/-- How often an event repeats. -/
inductive Frequency where
  | daily
  | weekly
  | monthly
  | yearly
  deriving DecidableEq, Repr, Inhabited

namespace Frequency

def all : List Frequency := [daily, weekly, monthly, yearly]

def keyword : Frequency → String
  | daily => "DAILY"
  | weekly => "WEEKLY"
  | monthly => "MONTHLY"
  | yearly => "YEARLY"

def key : Frequency → String
  | daily => "daily"
  | weekly => "weekly"
  | monthly => "monthly"
  | yearly => "yearly"

def unitName : Frequency → String
  | daily => "day"
  | weekly => "week"
  | monthly => "month"
  | yearly => "year"

def ofKey? (key : String) : Option Frequency :=
  all.find? fun f ↦ f.key == key

instance : Coded Frequency where
  minCode := 1
  maxCode := 4
  ofCode?
    | 1 => some daily
    | 2 => some weekly
    | 3 => some monthly
    | 4 => some yearly
    | _ => none
  code
    | daily => 1
    | weekly => 2
    | monthly => 3
    | yearly => 4

end Frequency

end MeetingCalendar
