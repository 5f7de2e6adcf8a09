import MeetingCalendar.Recurrence.Basic
import MeetingCalendar.Text.Integer

/-!
# English summaries of recurrences

One line for a reader, such as "Every 2 weeks on Monday, Thursday".
-/

namespace MeetingCalendar

/-- How often, in English. -/
def Frequency.phrase (f : Frequency) (interval : Nat) : String :=
  if interval = 1 then
    match f with
    | daily => "Daily"
    | weekly => "Weekly"
    | monthly => "Monthly"
    | yearly => "Yearly"
  else "Every " ++ toString interval ++ " " ++ f.unitName ++ "s"

/-- On which days, in English, with a blank in front. -/
def Repeat.phrase : Repeat → String
  | daily => ""
  | yearly => ""
  | weekly days => " on " ++ ", ".intercalate (days.toList.map Weekday.name)
  | monthly .sameDay => " on the same day"
  | monthly (.nth ordinal weekday) => " on the " ++ ordinal.name ++ " " ++ weekday.name
  | monthly (.last weekday) => " on the last " ++ weekday.name

def Recurrence.summary (r : Recurrence) : String :=
  r.frequency.phrase r.interval ++ r.pattern.phrase

end MeetingCalendar
