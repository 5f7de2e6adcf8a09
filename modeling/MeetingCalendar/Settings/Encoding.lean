import MeetingCalendar.Json.Basic
import MeetingCalendar.Settings.Basic

/-!
# Settings as JSON

Settings are written as three sections, each an object.  Reading is strict about types: a limit is
an unsigned 64-bit number and a pattern is a text.  Unknown keys are ignored and missing ones take
their defaults, but a logging section must have its level.  A section may also be written as an
array of its values in order.
-/

namespace MeetingCalendar

namespace OffsetPolicy

def key : OffsetPolicy → String
  | presenceOnly => "presence_only"
  | positive => "positive"

def ofKey? (key : String) : Option OffsetPolicy :=
  [presenceOnly, positive].find? fun p ↦ p.key == key

end OffsetPolicy

namespace Settings

def toJson (s : Settings) : Json :=
  .ofFields [
    ("logging", .ofFields [("level", .text s.logLevel)]),
    ("calendar", .ofFields [
      ("title_max_length", .integer s.requests.titleMaxLength),
      ("description_max_length", .integer s.requests.descriptionMaxLength),
      ("location_max_length", .integer s.requests.locationMaxLength),
      ("default_date_format", .text s.requests.defaultDatePattern),
      ("default_time_format", .text s.requests.defaultTimePattern),
      ("reminder_offsets_on_update", .text s.requests.offsetsOnUpdate.key)]),
    ("expansion", .ofFields [("max_occurrences", .integer s.maxOccurrences)])]

/-- How values of settings are read. -/
structure Reader where
  limit? : Json → Option Nat
  text? : Json → Option String
  choice? : Json → Option String
  /-- Whether an array may have more values than its section has keys. -/
  openEnded : Bool

def strict : Reader where
  limit? := Json.nat64?
  text? := Json.text?
  choice? := Json.choice?
  openEnded := false

/-- The values of a section under its keys, in order; `none` for a key that is missing. -/
def sectionValues? (reader : Reader) (keys : List String) : Json → Option (List (Option Json))
  | .object fields => some (keys.map fun key ↦ fields.lookup key)
  | .array items =>
    if items.length ≤ keys.length || reader.openEnded then
      some ((List.range keys.length).map fun i ↦ items[i]?)
    else none
  | _ => none

/-- Reads a value that may be missing. -/
def readOr {α : Type} (read : Json → Option α) (default : α) : Option Json → Option α
  | none => some default
  | some value => read value

def readLogging? (reader : Reader) (value : Json) : Option String := do
  match ← sectionValues? reader ["level"] value with
  | [some level] => reader.text? level
  | _ => none

def readRequests? (reader : Reader) (value : Json) : Option RequestPolicy := do
  let keys := ["title_max_length", "description_max_length", "location_max_length",
    "default_date_format", "default_time_format", "reminder_offsets_on_update"]
  match ← sectionValues? reader keys value with
  | [title, description, location, date, time, offsets] =>
    let usual : RequestPolicy := {}
    return {
      titleMaxLength := ← readOr reader.limit? usual.titleMaxLength title
      descriptionMaxLength := ← readOr reader.limit? usual.descriptionMaxLength description
      locationMaxLength := ← readOr reader.limit? usual.locationMaxLength location
      defaultDatePattern := ← readOr reader.text? usual.defaultDatePattern date
      defaultTimePattern := ← readOr reader.text? usual.defaultTimePattern time
      offsetsOnUpdate :=
        ← readOr (fun v ↦ reader.choice? v >>= OffsetPolicy.ofKey?) usual.offsetsOnUpdate offsets }
  | _ => none

def readExpansion? (reader : Reader) (value : Json) : Option Nat := do
  match ← sectionValues? reader ["max_occurrences"] value with
  | [max] => readOr reader.limit? defaultMaxOccurrences max
  | _ => none

def read? (reader : Reader) (value : Json) : Option Settings := do
  match ← sectionValues? reader ["logging", "calendar", "expansion"] value with
  | [logging, requests, expansion] =>
    let usual : Settings := {}
    return {
      logLevel := ← readOr (readLogging? reader) usual.logLevel logging
      requests := ← readOr (readRequests? reader) usual.requests requests
      maxOccurrences := ← readOr (readExpansion? reader) usual.maxOccurrences expansion }
  | _ => none

/-- Reads settings, strict about types. -/
def ofJson? (value : Json) : Option Settings :=
  read? strict value

end Settings

end MeetingCalendar
