import MeetingCalendar.Date.Basic
import MeetingCalendar.Json.Printer
import MeetingCalendar.Pattern.Reading
import MeetingCalendar.Text.Blank

/-!
# Reading a parameter

A parameter of a request is absent, null, a value of the expected kind, or something else.  Numbers
and truth values may be sent as text; a blank text counts as null wherever text itself is not what
is expected.  Each kind has a reader from JSON values to `Parsed`, and `Reading.of` joins it with
the presence of the parameter.
-/

namespace MeetingCalendar

/-- The kind of value that a parameter is read as. -/
inductive Expected where
  | text
  | integer
  | integerList
  | boolean
  | date (pattern : String)
  | time (pattern : String)
  deriving DecidableEq, Repr

/-- What was found under a parameter's name. -/
inductive Reading (α : Type) where
  | absent
  | null
  | invalid (raw : Json) (expected : Expected)
  | value (value : α) (raw : Json)

namespace Reading

variable {α : Type}

def value? : Reading α → Option α
  | value v _ => some v
  | _ => none

/-- The JSON value, if there is one and it is not null. -/
def raw? : Reading α → Option Json
  | invalid raw _ => some raw
  | value _ raw => some raw
  | _ => none

def isAbsent : Reading α → Bool
  | absent => true
  | _ => false

/-- Whether the parameter is absent or null. -/
def isMissing : Reading α → Bool
  | absent => true
  | null => true
  | _ => false

/-- The value as an update takes it: nothing for a parameter that is absent or of the wrong kind,
`none` for one that is null. -/
def patch? : Reading α → Option (Option α)
  | value v _ => some (some v)
  | null => some none
  | _ => none

end Reading

/-- What a JSON value other than null means as a value of some kind. -/
inductive Parsed (α : Type) where
  | blank
  | value (value : α)
  | invalid
  deriving DecidableEq, Repr

namespace Parsed

variable {α β : Type}

def ofOption : Option α → Parsed α
  | some v => value v
  | none => invalid

def map (f : α → β) : Parsed α → Parsed β
  | blank => blank
  | value v => value (f v)
  | invalid => invalid

def value? : Parsed α → Option α
  | value v => some v
  | _ => none

end Parsed

/-- The reading of a field with the given value, through a reader of its kind. -/
def Reading.of {α : Type} (expected : Expected) (parse : Json → Parsed α) :
    Option Json → Reading α
  | none => .absent
  | some .null => .null
  | some raw =>
    match parse raw with
    | .blank => .null
    | .value v => .value v raw
    | .invalid => .invalid raw expected

namespace Json

/-- Reads a text; numbers and truth values give their JSON text. -/
def asText : Json → Parsed String
  | text s => .value s
  | value => .ofOption (scalarText? value)

/-- Reads a 64-bit integer or the text of one. -/
def asInteger : Json → Parsed Int
  | text s => if Text.isBlank s then .blank
    else .ofOption (Text.readInt64? (Text.trimChars s.toList))
  | value => .ofOption value.int64?

/-- Reads one integer, or an array of them. -/
def asIntegers : Json → Parsed (List Int)
  | array items => .ofOption (items.mapM fun item ↦ (asInteger item).value?)
  | value => (asInteger value).map ([·])

/-- Reads a truth value or the text of one. -/
def asBoolean : Json → Parsed Bool
  | bool b => .value b
  | text s =>
    match String.ofList ((Text.trimChars s.toList).map Char.toLower) with
    | "" => .blank
    | "true" => .value true
    | "false" => .value false
    | _ => .invalid
  | _ => .invalid

def dateOfParts? : List Json → Option Date
  | [year, month, day] => do
    let year ← year.int64?
    let month ← month.int64?
    let day ← day.int64?
    if month < 0 ∨ day < 0 then none else Date.ofParts? year month.toNat day.toNat
  | _ => none

/-- Reads a date written by a pattern, or an array of year, month and day. -/
def asDate (pattern : Pattern) : Json → Parsed Date
  | text s => if Text.isBlank s then .blank else .ofOption (pattern.readDate? s)
  | array parts => .ofOption (dateOfParts? parts)
  | _ => .invalid

def asTime (pattern : Pattern) : Json → Parsed TimeOfDay
  | text s => if Text.isBlank s then .blank else .ofOption (pattern.readTime? s)
  | _ => .invalid

end Json

end MeetingCalendar
