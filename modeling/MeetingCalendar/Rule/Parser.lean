import MeetingCalendar.Date.Basic
import MeetingCalendar.Rule.Basic
import MeetingCalendar.Text.UpperCase

/-!
# Reading recurrence rules

A rule's text may have a property name in front, as in `RRULE:FREQ=DAILY`, and is then a sequence of
parts `KEY=value` between semicolons.  Empty parts are skipped; each other part must have a known
key, and no key may come twice.  Values are checked in a fixed order whatever the order of the
parts: the frequency first, the lists of times of day last.  Keys, the unit of time and the week
start may be written in any case.
-/

namespace MeetingCalendar.Rule

/-- Why a text is not a rule. -/
inductive SyntaxError where
  | unknownProperty (name : String)
  | propertyParameters (text : String)
  | malformedPart (text : String)
  | unknownPart (key : String)
  | duplicatePart (key : String)
  | missingFrequency
  | invalidFrequency (value : String)
  | invalidNumber (part : Part) (value : String)
  | invalidStop (value : String)
  | invalidWeekStart (value : String)
  | invalidList (part : Part) (value : String)
  | invalidWeekday (value : String)
  deriving DecidableEq, Repr

/-- The names of properties that may stand in front of a rule. -/
def propertyNames : List String :=
  ["RRULE", "EXRULE", "DTSTART", "RDATE", "EXDATE"]

/-- The range of the values in a list part and an example of such a list; the positions have no
range. -/
def Part.listRange : Part → Int × Int × String
  | seconds => (0, 59, "0,15,30,45")
  | minutes => (0, 59, "0,15,30,45")
  | hours => (0, 23, "1,3,4")
  | monthDays => (-31, 31, "-30,10")
  | yearDays => (-366, 366, "-100,")
  | weekNumbers => (-53, 53, "-1,30,53")
  | months => (1, 12, "6,9,10")
  | _ => (Text.minInt32, Text.maxInt32, "-3,1")

/-- The weekday abbreviations as messages list them. -/
def weekdayCodes : String :=
  "`MO`, `TU`, `WE`, `TH`, `FR`, `SA` and `SU`."

def SyntaxError.message : SyntaxError → String
  | unknownProperty name =>
    "`" ++ name ++ "` is not a valid property name, expected one of: `" ++
      ",".intercalate propertyNames ++ "`"
  | propertyParameters text =>
    "Property parameters aren't supported for RRULE / EXRULE, found parameters: `" ++ text ++ "`"
  | malformedPart text =>
    "`" ++ text ++ "` is a malformed property parameter. Parameter should be specified as " ++
      "`key=value`"
  | unknownPart key => "`" ++ key ++ "` is not a valid property parameter."
  | duplicatePart key =>
    "Found duplicate property for `" ++ key ++ "`, properties and parameters need to be unique."
  | missingFrequency => "The property `FREQ` wasn't found, and it is required."
  | invalidFrequency value => "`" ++ value ++ "` is not a valid frequency."
  | invalidNumber part value => "`" ++ value ++ "` is not a valid " ++ part.key ++ " value."
  | invalidStop value => "`" ++ value ++ "` is not a valid datetime format for `UNTIL`."
  | invalidWeekStart value =>
    "`" ++ value ++ "` is not a valid weekday start. Valid values are " ++ weekdayCodes
  | invalidList part value =>
    let (min, max, sample) := part.listRange
    let kind := if part = .positions then "integers"
      else "values in range " ++ toString min ++ "..=" ++ toString max
    "`" ++ value ++ "` is not a valid " ++ part.key ++ " value. Expected a comma-separated list of "
      ++ kind ++ ", e.g. `" ++ sample ++ "`"
  | invalidWeekday value =>
    "`" ++ value ++ "` is not a valid weekday. Valid values are " ++ weekdayCodes

/-- The capitals at the front of a line when a colon or semicolon follows them. -/
def lineProperty? (line : List Char) : Option (List Char) :=
  let name := line.takeWhile Char.isUpper
  match line.dropWhile Char.isUpper with
  | c :: _ => if !name.isEmpty && (c = ':' || c = ';') then some name else none
  | [] => none

/-- The property name in a text: the first line that starts with one. -/
def property? (cs : List Char) : Option (List Char) :=
  (cs.splitOn '\n').findSome? lineProperty?

/-- The value behind the property name of a rule's text, which is the whole text when neither is
named. -/
def propertyValue (cs : List Char) : Except SyntaxError (List Char) :=
  let name := (property? cs).getD "RRULE".toList
  let front := cs.takeWhile (· ≠ ':')
  if !propertyNames.contains (String.ofList name) then .error (.unknownProperty (String.ofList name))
  else
    match cs.dropWhile (· ≠ ':') with
    | [] => .ok (if String.ofList name = "RRULE" then cs else [])
    | _ :: value =>
      match (name ++ [';']).isPrefixOf? front with
      | none | some [] => .ok value
      | some parameters => .error (.propertyParameters (String.ofList parameters))

def readPart (piece : List Char) : Except SyntaxError (String × Part × List Char) :=
  match piece.dropWhile (· ≠ '=') with
  | [] => .error (.malformedPart (String.ofList piece))
  | _ :: value =>
    let key := piece.takeWhile (· ≠ '=')
    match Part.ofKey? (String.ofList (Text.upper key)) with
    | none => .error (.unknownPart (String.ofList key))
    | some part => .ok (String.ofList key, part, value)

def addPart (parts : List (Part × List Char)) (piece : List Char) :
    Except SyntaxError (List (Part × List Char)) := do
  let (key, part, value) ← readPart piece
  if parts.any fun p ↦ p.1 = part then .error (.duplicatePart key)
  else .ok (parts ++ [(part, value)])

def readParts (value : List Char) : Except SyntaxError (List (Part × List Char)) :=
  ((value.splitOn ';').filter fun piece ↦ !piece.isEmpty).foldlM addPart []

def readUnit (value : List Char) : Except SyntaxError Unit :=
  let keyword := String.ofList (Text.upper value)
  match Unit.ofKeyword? keyword with
  | some unit => .ok unit
  | none => .error (.invalidFrequency keyword)

def readNumber (part : Part) (max : Nat) (value : List Char) : Except SyntaxError Nat :=
  match Text.readUnsignedUpTo? max value with
  | some n => .ok n
  | none => .error (.invalidNumber part (String.ofList value))

def readPairBelow? (bound : Nat) (a b : Char) : Option Nat :=
  (Text.readDigits? [a, b]).filter (· < bound)

def areDigits (count : Nat) (cs : List Char) : Bool :=
  cs.length = count && cs.all Char.isDigit

/-- Whether a line has the form `YYYYMMDD`, alone or with `THHMMSS` and an optional `Z` behind
it. -/
def looksLikeDateTime (line : List Char) : Bool :=
  areDigits 8 (line.take 8) &&
    match line.drop 8 with
    | [] => true
    | 'T' :: rest => areDigits 6 (rest.take 6) && (rest.drop 6 = [] || rest.drop 6 = ['Z'])
    | _ => false

/-- Whether a line of that form names a date and a time of day that there are. -/
def isDateTime (line : List Char) : Bool :=
  let date := match line with
    | a :: b :: c :: d :: e :: f :: g :: h :: _ => do
      let year ← Text.readDigits? [a, b, c, d]
      let month ← Text.readDigits? [e, f]
      let day ← Text.readDigits? [g, h]
      Date.ofParts? year month day
    | _ => none
  let time := match line.drop 8 with
    | _ :: a :: b :: c :: d :: e :: f :: _ =>
      (readPairBelow? 24 a b).isSome && (readPairBelow? 60 c d).isSome &&
        (readPairBelow? 60 e f).isSome
    | _ => true
  date.isSome && time

/-- Whether the end of a rule is a moment: the first of its lines that looks like one must be
real. -/
def isMoment (value : List Char) : Bool :=
  ((value.splitOn '\n').find? looksLikeDateTime).any isDateTime

def readListed? (part : Part) (value : List Char) : Option Int :=
  let (min, max, _) := part.listRange
  if min < 0 then Text.readSignedWithin? min max value
  else ((Text.readUnsigned? value).map Int.ofNat).filter fun n ↦ min ≤ n && n ≤ max

/-- Whether a list part restricts the rule; an empty list does not. -/
def readList (part : Part) (value : List Char) : Except SyntaxError Bool :=
  if value.isEmpty then .ok false
  else if (value.splitOn ',').all fun item ↦ (readListed? part item).isSome then .ok true
  else .error (.invalidList part (String.ofList value))

/-- Reads a weekday entry.  What precedes the abbreviation counts as a place if it is a 16-bit
number other than zero, and is ignored otherwise. -/
def readDay (entry : List Char) : Except SyntaxError Day :=
  let front := entry.take (entry.length - 2)
  match Weekday.ofCode? (String.ofList (entry.drop (entry.length - 2))) with
  | none => .error (.invalidWeekday (String.ofList entry))
  | some weekday =>
    .ok ⟨(Text.readSignedWithin? Text.minInt16 Text.maxInt16 front).filter (· ≠ 0), weekday⟩

def readDays (value : List Char) : Except SyntaxError (List Day) :=
  (value.splitOn ',').mapM readDay

/-- Checks the week start, which has no effect: weeks start on Monday. -/
def checkWeekStart (value : List Char) : Except SyntaxError PUnit :=
  match Weekday.ofCode? (String.ofList (Text.upper value)) with
  | some _ => .ok ⟨⟩
  | none => .error (.invalidWeekStart (String.ofList value))

section OfParts

variable (parts : List (Part × List Char))

/-- What is read from the value of a part, or `default` without the part. -/
def readOr {α : Type} (part : Part) (default : α)
    (read : List Char → Except SyntaxError α) : Except SyntaxError α :=
  match parts.lookup part with
  | none => .ok default
  | some value => read value

def unitOfParts : Except SyntaxError Unit :=
  match parts.lookup .frequency with
  | none => .error .missingFrequency
  | some value => readUnit value

def countOfParts : Except SyntaxError (List Part) :=
  readOr parts .count [] fun value ↦
    (readNumber .count Text.maxNat32 value).map fun _ ↦ [Part.count]

def stopOfParts : Except SyntaxError (List Part) :=
  readOr parts .stop [] fun value ↦
    if isMoment value then .ok [Part.stop] else .error (.invalidStop (String.ofList value))

/-- A list part, if the rule has it and it restricts the rule. -/
def listOfParts (part : Part) : Except SyntaxError (List Part) :=
  readOr parts part [] fun value ↦
    (readList part value).map fun restricts ↦ if restricts then [part] else []

/-- Reads the parts of a rule, in the order in which their errors are told. -/
def ofParts : Except SyntaxError Rule := do
  let unit ← unitOfParts parts
  let interval ← readOr parts .interval 1 (readNumber .interval Text.maxNat16)
  let count ← countOfParts parts
  let stop ← stopOfParts parts
  readOr parts .weekStart ⟨⟩ checkWeekStart
  let dates ← [Part.positions, .months, .monthDays, .yearDays, .weekNumbers].mapM
    (listOfParts parts)
  let days ← readOr parts .days [] readDays
  let times ← [Part.hours, .minutes, .seconds].mapM (listOfParts parts)
  return ⟨unit, interval, days, count ++ stop ++ dates.flatten ++ times.flatten⟩

end OfParts

def parse (cs : List Char) : Except SyntaxError Rule := do
  ofParts (← readParts (← propertyValue cs))

end MeetingCalendar.Rule
