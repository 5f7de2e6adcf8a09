import MeetingCalendar.Handling
import MeetingCalendar.Recurrence.Summary

/-!
# Commands

The three commands on the text of a request: validate it, show the event that it describes, or list
the meeting dates of that event in a window.  A request that breaks constraints is no error of the
command: the outcome then holds the report.
-/

namespace MeetingCalendar

/-- A command with the name of the input that holds the request. -/
inductive Command where
  | validate (mode : Mode) (input : String)
  | parse (input : String)
  | expand (input : String) (window : Window) (limit : Option Nat)
  deriving DecidableEq, Repr

/-- Whether the request was accepted, and what there is to print. -/
structure Outcome where
  accepted : Bool
  output : Json

namespace Command

def input : Command → String
  | validate _ input => input
  | parse input => input
  | expand input _ _ => input

/-- The meeting dates of an event with its recurrence, if it repeats. -/
def expanded (e : Event) (dates : List Date) : Json :=
  .ofFields <|
    encodeField? "recurrence" e.recurrence ++
    encodeField? "description" (e.recurrence.map Recurrence.summary) ++
    [("dates", .array (dates.map encode))]

/-- What there is to print for the text of a request. -/
def answer (command : Command) (settings : Settings) (body : String) :
    Except CalendarError Json := do
  match command with
  | validate mode _ =>
    settings.requests.validateBody mode body
    return .object [("valid", .bool true)]
  | parse _ => return (← settings.requests.createEvent body).toJson
  | expand _ window limit =>
    let e ← settings.requests.createEvent body
    return expanded e (e.meetingDates window (limit.getD settings.maxOccurrences))

def run (command : Command) (settings : Settings) (body : String) :
    Except CalendarError Outcome :=
  match command.answer settings body with
  | .ok output => .ok ⟨true, output⟩
  | .error (.rejected report) => .ok ⟨false, report.toJson⟩
  | .error e => .error e

end Command

end MeetingCalendar
