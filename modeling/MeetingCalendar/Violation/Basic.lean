import MeetingCalendar.Request.Reading
import MeetingCalendar.Text.Integer

/-!
# Violations

A violation says which constraint a parameter of a request breaks, and by which value.  A report
collects the violations of one request; it is what a client gets back when any were found.
-/

namespace MeetingCalendar

/-- What a parameter must satisfy, named by what is wrong when it does not. -/
inductive Constraint where
  | cannotBeBlank
  | exceedsMaxLength (max : Nat)
  | notWithinRange (min max : Int)
  | notGreaterThanZero
  | invalidText
  | invalidInteger
  | invalidBoolean
  | invalidDate (pattern : String)
  | invalidTime (pattern : String)
  /-- This parameter and another one were both supplied. -/
  | mutuallyExclusive (other : String)
  /-- A date before the start date of the event. -/
  | beforeStartDate
  /-- A date on which the event does not meet. -/
  | notAnOccurrence
  deriving DecidableEq, Repr

namespace Constraint

/-- The constraint that a value of another kind breaks. -/
def ofExpected : Expected → Constraint
  | .text => invalidText
  | .integer => invalidInteger
  | .integerList => invalidInteger
  | .boolean => invalidBoolean
  | .date pattern => invalidDate pattern
  | .time pattern => invalidTime pattern

/-- The last part of the code under which messages are looked up. -/
def code : Constraint → String
  | cannotBeBlank => "cannot.be.blank"
  | exceedsMaxLength _ => "exceeds.max.length"
  | notWithinRange _ _ => "is.not.within.expected.range"
  | notGreaterThanZero => "not.greater.than.zero"
  | invalidText => "invalid.text"
  | invalidInteger => "not.an.integer"
  | invalidBoolean => "invalid.boolean"
  | invalidDate _ => "invalid.date.format"
  | invalidTime _ => "invalid.time.format"
  | mutuallyExclusive other => "cannot.be.provided.with." ++ other
  | beforeStartDate => "cannot.be.before.start.date"
  | notAnOccurrence => "not.a.meeting.date"

/-- What is said of the parameter in English, behind its name. -/
def phrase : Constraint → String
  | cannotBeBlank => "is mandatory."
  | exceedsMaxLength max => "exceeds max length of " ++ toString max ++ "."
  | notWithinRange min max =>
    "must be between " ++ toString min ++ " and " ++ toString max ++ "."
  | notGreaterThanZero => "must be greater than 0."
  | invalidText => "must be text."
  | invalidInteger => "must be a whole number."
  | invalidBoolean => "must be set as true or false."
  | invalidDate pattern => "is not a valid date in format `" ++ pattern ++ "`."
  | invalidTime pattern => "is not a valid time in format `" ++ pattern ++ "`."
  | mutuallyExclusive other => "cannot be provided together with `" ++ other ++ "`."
  | beforeStartDate => "cannot be before the start date."
  | notAnOccurrence => "is not a date of the meeting schedule."

def message (c : Constraint) (parameter : String) : String :=
  "The parameter `" ++ parameter ++ "` " ++ c.phrase

end Constraint

/-- A constraint that a parameter breaks by its value. -/
structure Violation where
  parameter : String
  value : Json
  constraint : Constraint

namespace Violation

def message (v : Violation) : String :=
  v.constraint.message v.parameter

def code (v : Violation) (resource : String) : String :=
  "validation.msg." ++ resource ++ "." ++ v.parameter ++ "." ++ v.constraint.code

/-- The violation as clients get it. -/
def toJson (v : Violation) (resource : String) : Json :=
  .ofFields [("developerMessage", .text v.message), ("defaultUserMessage", .text v.message),
    ("userMessageGlobalisationCode", .text (v.code resource)),
    ("parameterName", .text v.parameter), ("value", v.value)]

end Violation

/-- The violations of a request for some kind of resource, in the order in which they were
found. -/
structure Report where
  resource : String
  violations : List Violation

namespace Report

def empty (resource : String) : Report :=
  ⟨resource, []⟩

def calendar (violations : List Violation) : Report :=
  ⟨"calendar", violations⟩

def add (r : Report) (v : Violation) : Report :=
  { r with violations := r.violations ++ [v] }

def append (r : Report) (vs : List Violation) : Report :=
  { r with violations := r.violations ++ vs }

def isEmpty (r : Report) : Bool :=
  r.violations.isEmpty

def forParameter (r : Report) (parameter : String) : List Violation :=
  r.violations.filter fun v ↦ v.parameter == parameter

/-- What is said of a report as a whole. -/
def heading : String := "Validation errors exist."

/-- One line with the codes of the violations. -/
def summary (r : Report) : String :=
  let codes := r.violations.map fun v ↦ v.code r.resource
  heading ++ (if codes.isEmpty then "" else " ") ++ "; ".intercalate codes

def toJson (r : Report) : Json :=
  .ofFields [("developerMessage", .text heading), ("defaultUserMessage", .text heading),
    ("userMessageGlobalisationCode", .text "validation.msg.validation.errors.exist"),
    ("errors", .array (r.violations.map fun v ↦ v.toJson r.resource))]

end Report

end MeetingCalendar
