import MeetingCalendar.Frequency
import MeetingCalendar.Text.Integer

/-!
# Recurrence rules

The rules of iCalendar (RFC 5545) as values: a unit of time, an interval and a list of weekdays with
optional places, as in `FREQ=MONTHLY;INTERVAL=2;BYDAY=-1FR`.  A rule also remembers which other
parts its text held, because not every reader can honour them.
-/

namespace MeetingCalendar

namespace Rule

/-- The unit of time that a rule counts in. -/
inductive Unit where
  | yearly
  | monthly
  | weekly
  | daily
  | hourly
  | minutely
  | secondly
  deriving DecidableEq, Repr

namespace Unit

/-- The units from the longest to the shortest. -/
def all : List Unit := [yearly, monthly, weekly, daily, hourly, minutely, secondly]

def keyword : Unit → String
  | yearly => "YEARLY"
  | monthly => "MONTHLY"
  | weekly => "WEEKLY"
  | daily => "DAILY"
  | hourly => "HOURLY"
  | minutely => "MINUTELY"
  | secondly => "SECONDLY"

def name : Unit → String
  | yearly => "Yearly"
  | monthly => "Monthly"
  | weekly => "Weekly"
  | daily => "Daily"
  | hourly => "Hourly"
  | minutely => "Minutely"
  | secondly => "Secondly"

def ofFrequency : Frequency → Unit
  | .daily => daily
  | .weekly => weekly
  | .monthly => monthly
  | .yearly => yearly

/-- The calendar frequency of a unit; units below a day have none. -/
def frequency? : Unit → Option Frequency
  | daily => some .daily
  | weekly => some .weekly
  | monthly => some .monthly
  | yearly => some .yearly
  | _ => none

def ofKeyword? (keyword : String) : Option Unit :=
  all.find? fun u ↦ u.keyword == keyword

@[simp]
theorem frequency?_ofFrequency (f : Frequency) : (ofFrequency f).frequency? = some f := by
  cases f <;> rfl

end Unit

/-- A weekday in a rule: every one, or the one at a place, counted from the end if negative. -/
structure Day where
  place : Option Int
  weekday : Weekday
  deriving DecidableEq, Repr

inductive Part where
  | frequency
  | stop
  | count
  | interval
  | seconds
  | minutes
  | hours
  | days
  | monthDays
  | yearDays
  | weekNumbers
  | months
  | positions
  | weekStart
  deriving DecidableEq, Repr

namespace Part

def key : Part → String
  | frequency => "FREQ"
  | stop => "UNTIL"
  | count => "COUNT"
  | interval => "INTERVAL"
  | seconds => "BYSECOND"
  | minutes => "BYMINUTE"
  | hours => "BYHOUR"
  | days => "BYDAY"
  | monthDays => "BYMONTHDAY"
  | yearDays => "BYYEARDAY"
  | weekNumbers => "BYWEEKNO"
  | months => "BYMONTH"
  | positions => "BYSETPOS"
  | weekStart => "WKST"

def all : List Part :=
  [frequency, stop, count, interval, seconds, minutes, hours, days, monthDays, yearDays,
    weekNumbers, months, positions, weekStart]

/-- The part with a key; the weekdays have a second key. -/
def ofKey? (key : String) : Option Part :=
  if key = "BYWEEKDAY" then some days else all.find? fun p ↦ p.key == key

end Part

end Rule

/-- A recurrence rule.  `others` lists the parts besides unit, interval, weekdays and week start
that restrict the rule. -/
structure Rule where
  unit : Rule.Unit
  interval : Nat
  days : List Rule.Day
  others : List Rule.Part
  deriving DecidableEq, Repr

namespace Rule

def Day.toChars (day : Day) : List Char :=
  (match day.place with
    | some place => Text.integerChars place
    | none => []) ++ day.weekday.code.toList

def Part.toChars (part : Part) (value : List Char) : List Char :=
  part.key.toList ++ '=' :: value

/-- The parts of a rule's text; an interval of one is left out, and so is an empty list of
weekdays. -/
def partsToChars (rule : Rule) : List (List Char) :=
  Part.frequency.toChars rule.unit.keyword.toList ::
    (if rule.interval = 1 then [] else [Part.interval.toChars (Nat.toDigits 10 rule.interval)]) ++
    (if rule.days.isEmpty then []
      else [Part.days.toChars ([','].intercalate (rule.days.map Day.toChars))])

/-- The text of a rule that no other parts restrict. -/
def toText (rule : Rule) : String :=
  String.ofList ([';'].intercalate rule.partsToChars)

end Rule

end MeetingCalendar
