import MeetingCalendar.Decimal.Shortest
import MeetingCalendar.Json.Basic

/-!
# Writing JSON text

Numbers in double precision have the shortest text that reads back; texts escape the quote, the
backslash and the control characters below U+0020 and keep all else.  `compact` writes a value
without blanks, `pretty` with one item a line and two spaces for each level.
-/

namespace MeetingCalendar.Json

def escapeChar (c : Char) : List Char :=
  if c == '"' then ['\\', '"']
  else if c == '\\' then ['\\', '\\']
  else if c == '\n' then ['\\', 'n']
  else if c == '\r' then ['\\', 'r']
  else if c == '\t' then ['\\', 't']
  else if c == '\x08' then ['\\', 'b']
  else if c == '\x0c' then ['\\', 'f']
  else if c.toNat < 0x20 then
    ['\\', 'u', '0', '0', Nat.digitChar (c.toNat / 16), Nat.digitChar (c.toNat % 16)]
  else [c]

def quote (s : String) : String :=
  String.ofList ('"' :: s.toList.flatMap escapeChar ++ ['"'])

/-- The text of a number or a truth value; `none` for any other value. -/
def scalarText? : Json → Option String
  | .integer n => some (toString n)
  | .float x => some (String.ofList (Decimal.scientificChars x))
  | .bool true => some "true"
  | .bool false => some "false"
  | _ => none

mutual

/-- The text of a value without blanks. -/
def compact : Json → String
  | .text s => quote s
  | .array items => "[" ++ ",".intercalate (compactItems items) ++ "]"
  | .object fields => "\x7b" ++ ",".intercalate (compactFields fields) ++ "\x7d"
  | value => (scalarText? value).getD "null"

def compactItems : List Json → List String
  | [] => []
  | item :: items => compact item :: compactItems items

def compactFields : List (String × Json) → List String
  | [] => []
  | (name, value) :: fields => (quote name ++ ":" ++ compact value) :: compactFields fields

end

/-- A new line that starts with two spaces for each level. -/
def newLine (level : Nat) : String :=
  String.ofList ('\n' :: List.replicate (2 * level) ' ')

/-- The given texts between brackets, each on a line of its own. -/
def block (level : Nat) (opening closing : String) (entries : List String) : String :=
  if entries.isEmpty then opening ++ closing
  else
    let line := newLine (level + 1)
    opening ++ line ++ ("," ++ line).intercalate entries ++ newLine level ++ closing

mutual

/-- The text of a value with one item a line, at the given level. -/
def prettyAt (level : Nat) : Json → String
  | .text s => quote s
  | .array items => block level "[" "]" (prettyItems (level + 1) items)
  | .object fields => block level "\x7b" "\x7d" (prettyFields (level + 1) fields)
  | value => (scalarText? value).getD "null"

def prettyItems (level : Nat) : List Json → List String
  | [] => []
  | item :: items => prettyAt level item :: prettyItems level items

def prettyFields (level : Nat) : List (String × Json) → List String
  | [] => []
  | (name, value) :: fields =>
    (quote name ++ ": " ++ prettyAt level value) :: prettyFields level fields

end

def pretty (value : Json) : String :=
  prettyAt 0 value

end MeetingCalendar.Json
