import MeetingCalendar.Text.Blank
import MeetingCalendar.Text.Integer

/-!
# Settings

What can be configured: the greatest lengths of texts in requests, the patterns for dates and times
when a request names none, how strictly reminder offsets are checked on updates, and how many dates
an expansion gives at most.  Settings with a limit of zero or a blank pattern are unusable.
-/

namespace MeetingCalendar

/-- How reminder offsets are checked on updates. -/
inductive OffsetPolicy where
  /-- Any integer will do. -/
  | presenceOnly
  /-- An offset must be greater than zero, as it must on creation. -/
  | positive
  deriving DecidableEq, Repr

/-- What requests are checked against. -/
structure RequestPolicy where
  titleMaxLength : Nat := 50
  descriptionMaxLength : Nat := 100
  locationMaxLength : Nat := 50
  defaultDatePattern : String := "yyyy-MM-dd"
  defaultTimePattern : String := "HH:mm"
  offsetsOnUpdate : OffsetPolicy := .presenceOnly
  deriving DecidableEq, Repr

def defaultMaxOccurrences : Nat := 10000

structure Settings where
  logLevel : String := "info"
  requests : RequestPolicy := {}
  maxOccurrences : Nat := defaultMaxOccurrences
  deriving DecidableEq, Repr

inductive SettingsError where
  | zeroLimit (key : String)
  | blankPattern (key : String)
  deriving DecidableEq, Repr

namespace SettingsError

def message : SettingsError → String
  | zeroLimit key => key ++ " must be greater than zero"
  | blankPattern key => key ++ " must not be blank"

def describe (e : SettingsError) : String :=
  "Configuration error: " ++ e.message

end SettingsError

namespace Settings

/-- The limits with their keys, in the order in which they are checked. -/
def limits (s : Settings) : List (String × Nat) :=
  [("calendar.title_max_length", s.requests.titleMaxLength),
    ("calendar.description_max_length", s.requests.descriptionMaxLength),
    ("calendar.location_max_length", s.requests.locationMaxLength),
    ("expansion.max_occurrences", s.maxOccurrences)]

def patterns (s : Settings) : List (String × String) :=
  [("calendar.default_date_format", s.requests.defaultDatePattern),
    ("calendar.default_time_format", s.requests.defaultTimePattern)]

/-- Refuses settings with a limit of zero or a blank pattern, naming the first of them. -/
def validate (s : Settings) : Except SettingsError Unit :=
  match s.limits.find? fun (_, limit) ↦ limit == 0 with
  | some (key, _) => .error (.zeroLimit key)
  | none =>
    match s.patterns.find? fun (_, pattern) ↦ Text.isBlank pattern with
    | some (key, _) => .error (.blankPattern key)
    | none => .ok ()

end Settings

end MeetingCalendar
