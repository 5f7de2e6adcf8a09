import MeetingCalendar.Json.Parser
import MeetingCalendar.Request.Parameter
import MeetingCalendar.Request.Reading
import MeetingCalendar.Settings.Basic

/-!
# Requests

A request is a JSON object together with the patterns by which its dates and times are written.  The
request may name the patterns itself; otherwise the configured ones hold.
-/

namespace MeetingCalendar

/-- Why a text is not a request. -/
inductive MalformedRequest where
  | blank
  | notJson
  | notAnObject
  | dateField (field pattern : String)
  | timeField (field pattern : String)
  deriving DecidableEq, Repr

def MalformedRequest.message : MalformedRequest → String
  | blank => "request body is blank"
  | notJson => "invalid JSON"
  | notAnObject => "request body must be a JSON object"
  | dateField field pattern =>
    "unsupported field '" ++ field ++ "' in date format '" ++ pattern ++ "'"
  | timeField field pattern =>
    "unsupported field '" ++ field ++ "' in time format '" ++ pattern ++ "'"

/-- A request: named values, and how its dates and times are written. -/
structure Request where
  fields : List (String × Json)
  datePattern : Pattern
  timePattern : Pattern

namespace Request

/-- The pattern that the fields name under a key, without blank ends, or else the default. -/
def patternText (fields : List (String × Json)) (key default : String) : String :=
  match fields.lookup key with
  | some (.text s) => if Text.isBlank s then default else Text.trim s
  | _ => default

def ofFields (policy : RequestPolicy) (fields : List (String × Json)) :
    Except MalformedRequest Request := do
  let dateText := patternText fields Parameter.dateFormat policy.defaultDatePattern
  let timeText := patternText fields Parameter.timeFormat policy.defaultTimePattern
  let datePattern ← (Pattern.ofText dateText).mapError (.dateField · dateText)
  let timePattern ← (Pattern.ofText timeText).mapError (.timeField · timeText)
  return ⟨fields, datePattern, timePattern⟩

def ofJson (policy : RequestPolicy) : Json → Except MalformedRequest Request
  | .object fields => ofFields policy fields
  | _ => .error .notAnObject

def ofBody (policy : RequestPolicy) (body : String) : Except MalformedRequest Request :=
  if Text.isBlank body then .error .blank
  else
    match Json.parse? body with
    | none => .error .notJson
    | some value => ofJson policy value

def get? (r : Request) (name : String) : Option Json :=
  r.fields.lookup name

def has (r : Request) (name : String) : Bool :=
  (r.get? name).isSome

def names (r : Request) : List String :=
  r.fields.map Prod.fst

def unsupported (r : Request) (allowed : List String) : List String :=
  r.names.filter fun name ↦ !allowed.contains name

def text (r : Request) (name : String) : Reading String :=
  .of .text Json.asText (r.get? name)

def integer (r : Request) (name : String) : Reading Int :=
  .of .integer Json.asInteger (r.get? name)

def integers (r : Request) (name : String) : Reading (List Int) :=
  .of .integerList Json.asIntegers (r.get? name)

def boolean (r : Request) (name : String) : Reading Bool :=
  .of .boolean Json.asBoolean (r.get? name)

def date (r : Request) (name : String) : Reading Date :=
  .of (.date r.datePattern.text) (Json.asDate r.datePattern) (r.get? name)

def time (r : Request) (name : String) : Reading TimeOfDay :=
  .of (.time r.timePattern.text) (Json.asTime r.timePattern) (r.get? name)

end Request

end MeetingCalendar
