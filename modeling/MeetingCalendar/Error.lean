import MeetingCalendar.Recurrence.Rule
import MeetingCalendar.Request.Basic
import MeetingCalendar.Violation.Basic

/-!
# Errors

Why a request is refused, from the first thing that is looked at to the last: its text may be no
request, it may have fields that are not supported, it may break constraints, or what it says of
repeating may not form a recurrence.
-/

namespace MeetingCalendar

/-- Why a request or a recurrence is refused. -/
inductive CalendarError where
  | malformed (cause : MalformedRequest)
  | unsupported (names : List String)
  | rejected (report : Report)
  | invalidRecurrence (cause : RecurrenceError)
  | invalidRule (cause : RuleError)

namespace CalendarError

def message : CalendarError → String
  | malformed cause => "Malformed request: " ++ cause.message
  | unsupported names => "Unsupported parameter(s): " ++ ", ".intercalate names
  | rejected report => report.summary
  | invalidRecurrence cause => cause.describe
  | invalidRule cause => cause.describe

def report? : CalendarError → Option Report
  | rejected report => some report
  | _ => none

end CalendarError

/-- A report without violations is no error. -/
def Report.toResult (report : Report) : Except CalendarError Unit :=
  if report.isEmpty then .ok () else .error (.rejected report)

/-- The report of violations of a calendar request, as a result. -/
def Violation.toResult (violations : List Violation) : Except CalendarError Unit :=
  (Report.calendar violations).toResult

def Recurrence.create (interval : Nat) (pattern : Repeat) : Except CalendarError Recurrence :=
  (make interval pattern).mapError .invalidRecurrence

/-- The request in a text, with supported fields only. -/
def Request.ofSupportedBody (policy : RequestPolicy) (body : String) :
    Except CalendarError Request := do
  let request ← (Request.ofBody policy body).mapError .malformed
  match request.unsupported Parameter.all with
  | [] => return request
  | names => throw (.unsupported names)

end MeetingCalendar
