import MeetingCalendar.Decimal.Reading
import MeetingCalendar.Json.Parser
import MeetingCalendar.Json.Path
import MeetingCalendar.Json.Printer
import MeetingCalendar.Settings.Encoding

/-!
# Loading settings

Settings come from their defaults, from the JSON text of a file and from environment variables, and
a later source wins.  The name of a variable is `ALMANAC__`, the section, `__` and the key, in any
case.  The values of a file and of the environment are read leniently: a limit may be given as text,
as a truth value or as a number with decimal places, which is rounded, and a text may be given as a
number.
-/

namespace MeetingCalendar

inductive LoadError where
  | unreadable
  | invalid (cause : SettingsError)
  deriving DecidableEq, Repr

namespace Json

mutual

/-- Lays a value over another one, if there is one: fields of objects are laid over each other, and
any other value is replaced. -/
def overlay (below : Option Json) : Json → Json
  | object fields =>
    match below with
    | some (object old) => object (overlayFields old fields)
    | _ => object (overlayFields [] fields)
  | value => value

def overlayFields (below : List (String × Json)) : List (String × Json) → List (String × Json)
  | [] => below
  | (name, value) :: rest =>
    overlayFields (setField name (overlay (below.lookup name) value) below) rest

end

end Json

namespace Settings

/-- The nearest unsigned 64-bit number. -/
def roundLimit (x : Float) : Nat :=
  x.round.toUInt64.toNat

/-- Reads a limit given in any form. -/
def lenientLimit? : Json → Option Nat
  | .integer n => if 0 ≤ n then some n.toNat else none
  | .float x => some (roundLimit x)
  | .bool b => some b.toNat
  | .text s =>
    let word := String.ofList (s.toList.map Char.toLower)
    if ["true", "on", "yes"].contains word then some 1
    else if ["false", "off", "no"].contains word then some 0
    else Text.readUnsignedUpTo? Text.maxNat64 s.toList
  | _ => none

def lenientText? : Json → Option String
  | .text s => some s
  | .bool b => some (if b then "true" else "false")
  | .integer n => some (toString n)
  | .float x => some (String.ofList (Decimal.positionalChars x))
  | _ => none

/-- Reads a choice given by its name or by an object with that one key. -/
def lenientChoice? : Json → Option String
  | .text s => some s
  | .object [(name, _)] => some name
  | _ => none

def lenient : Reader where
  limit? := lenientLimit?
  text? := lenientText?
  choice? := lenientChoice?
  openEnded := true

/-- The path that a name stands for; a name that is no path stands for the field of that name. -/
def pathOf (name : List Char) : List PathStep :=
  (PathStep.readPath? name).getD [.field (String.ofList name)]

def overlayAt (tree : Json) (path : List PathStep) (value : Json) : Json :=
  Json.update (fun below ↦ Json.overlay below value) path (some tree)

/-- Puts a full stop for each two underscores. -/
def stopsForUnderscores : List Char → List Char
  | '_' :: '_' :: cs => '.' :: stopsForUnderscores cs
  | c :: cs => c :: stopsForUnderscores cs
  | [] => []

/-- What the names of environment variables start with, in small letters. -/
def variableStart : String := "almanac__"

/-- The path that an environment variable sets, if it is about settings. -/
def variablePath? (name : String) : Option (List PathStep) :=
  let cs := name.toList.map Char.toLower
  if cs.take variableStart.length = variableStart.toList then
    some (pathOf (stopsForUnderscores (cs.drop variableStart.length)))
  else none

/-- What the text of an environment variable means: a truth value, an integer, another number or
the text itself. -/
def variableValue (value : String) : Json :=
  let cs := value.toList
  if cs.map Char.toLower = "true".toList then .bool true
  else if cs.map Char.toLower = "false".toList then .bool false
  else
    match Text.readInt64? cs, Decimal.read? cs with
    | some n, _ => .integer n
    | none, some x => .float x
    | none, none => .text value

/-- Lays an environment variable over settings; one with an empty text counts as unset. -/
def overlayVariable (tree : Json) (setting : String × String) : Json :=
  match variablePath? setting.1 with
  | none => tree
  | some path =>
    if setting.2.isEmpty then tree
    else overlayAt tree path (variableValue setting.2)

/-- The settings that hold before any source. -/
def defaultTree : Json :=
  .object [("logging", .object [("level", .text "info")])]

def overlayFile? (tree : Json) (text : String) : Option Json :=
  match Json.parse? text with
  | some (.object fields) =>
    some (fields.foldl (fun tree field ↦ overlayAt tree (pathOf field.1.toList) field.2) tree)
  | _ => none

/-- Loads settings from the text of a file, if there is one, and from environment variables, and
checks them. -/
def load (file : Option String) (environment : List (String × String)) :
    Except LoadError Settings :=
  let tree? := match file with
    | none => some defaultTree
    | some text => overlayFile? defaultTree text
  match tree? with
  | none => .error .unreadable
  | some tree =>
    match read? lenient (environment.foldl overlayVariable tree) with
    | none => .error .unreadable
    | some settings => (settings.validate.mapError .invalid).map fun _ ↦ settings

end Settings

end MeetingCalendar
