import MeetingCalendar.Recurrence.Basic
import MeetingCalendar.Text.Integer

/-!
# Wording of recurrence errors

One sentence for each reason why parts do not form a recurrence.
-/

namespace MeetingCalendar

def RecurrenceError.message : RecurrenceError → String
  | zeroInterval => "interval must be greater than zero"
  | intervalTooLarge =>
    "interval must not exceed " ++ toString Recurrence.maxInterval
  | noWeekdays => "weekly recurrence needs at least one weekday"
  | missingFrequency => "frequency is required"
  | intervalOutOfRange interval =>
    "interval " ++ toString interval ++ " out of range: number too " ++
      (if interval < 0 then "small" else "large") ++ " to fit in target type"
  | intervalTooLargeForRule interval =>
    "interval " ++ toString interval ++ ": number too large to fit in target type"
  | mutuallyExclusive parameter other => parameter ++ " and " ++ other ++ " are mutually exclusive"
  | requires parameter other => parameter ++ " requires " ++ other
  | codeOutOfRange parameter min max code =>
    parameter ++ " must be between " ++ toString min ++ " and " ++ toString max ++
      ", got " ++ toString code

/-- The wording of an error with what it is about in front. -/
def RecurrenceError.describe (e : RecurrenceError) : String :=
  "Invalid recurrence: " ++ e.message

end MeetingCalendar
