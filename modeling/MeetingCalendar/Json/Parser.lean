import MeetingCalendar.Json.Number

/-!
# Reading JSON text

The grammar of RFC 8259: space, tab and line ends are the only blanks, there are no comments and no
trailing commas, control characters must be escaped in texts, and an escaped surrogate must be half
of a pair.  At most 127 arrays and objects may be nested.  Of several fields with one name the last
counts.
-/

namespace MeetingCalendar.Json

def skipBlanks (cs : List Char) : List Char :=
  cs.dropWhile fun c ↦ c == ' ' || c == '\t' || c == '\n' || c == '\r'

def hexDigit? (c : Char) : Option Nat :=
  if '0' ≤ c ∧ c ≤ '9' then some (c.toNat - '0'.toNat)
  else if 'a' ≤ c ∧ c ≤ 'f' then some (c.toNat - 'a'.toNat + 10)
  else if 'A' ≤ c ∧ c ≤ 'F' then some (c.toNat - 'A'.toNat + 10)
  else none

def readHex? : List Char → Option (Nat × List Char)
  | a :: b :: c :: d :: cs => do
    let a ← hexDigit? a
    let b ← hexDigit? b
    let c ← hexDigit? c
    let d ← hexDigit? d
    some (((a * 16 + b) * 16 + c) * 16 + d, cs)
  | _ => none

/-- Reads what follows `\u`: one code unit, or two that form a surrogate pair. -/
def readUnicode? (cs : List Char) : Option (Char × List Char) := do
  let (unit, rest) ← readHex? cs
  if 0xD800 ≤ unit ∧ unit < 0xDC00 then
    match rest with
    | '\\' :: 'u' :: rest =>
      let (low, rest) ← readHex? rest
      if 0xDC00 ≤ low ∧ low < 0xE000 then
        some (Char.ofNat (0x10000 + (unit - 0xD800) * 0x400 + (low - 0xDC00)), rest)
      else none
    | _ => none
  else if 0xDC00 ≤ unit ∧ unit < 0xE000 then none
  else some (Char.ofNat unit, rest)

def escaped? : Char → Option Char
  | '"' => some '"'
  | '\\' => some '\\'
  | '/' => some '/'
  | 'b' => some '\x08'
  | 'f' => some '\x0c'
  | 'n' => some '\n'
  | 'r' => some '\r'
  | 't' => some '\t'
  | _ => none

/-- Reads a text behind its opening quote; `fuel` bounds the number of characters. -/
def readText? : (fuel : Nat) → List Char → Option (List Char × List Char)
  | 0, _ => none
  | _, [] => none
  | fuel + 1, c :: cs =>
    if c == '"' then some ([], cs)
    else if c.toNat < 0x20 then none
    else if c == '\\' then do
      let (c, rest) ← match cs with
        | 'u' :: rest => readUnicode? rest
        | e :: rest => (escaped? e).map (·, rest)
        | [] => none
      let (chars, rest) ← readText? fuel rest
      some (c :: chars, rest)
    else do
      let (chars, rest) ← readText? fuel cs
      some (c :: chars, rest)

mutual

/-- Reads the value at the front of the characters.  `depth` is the number of arrays and objects
that may still open; `fuel` bounds the number of tokens. -/
def readValue? (fuel depth : Nat) (cs : List Char) : Option (Json × List Char) :=
  match fuel with
  | 0 => none
  | fuel + 1 =>
    match skipBlanks cs with
    | '"' :: rest => (readText? (rest.length + 1) rest).map fun (s, rest) ↦
      (.text (String.ofList s), rest)
    | '[' :: rest =>
      match depth with
      | 0 => none
      | depth + 1 =>
        match skipBlanks rest with
        | ']' :: rest => some (.array [], rest)
        | rest => (readItems? fuel depth rest).map fun (items, rest) ↦ (.array items, rest)
    | '\x7b' :: rest =>
      match depth with
      | 0 => none
      | depth + 1 =>
        match skipBlanks rest with
        | '\x7d' :: rest => some (.object [], rest)
        | rest => (readFields? fuel depth rest).map fun (fields, rest) ↦ (ofFields fields, rest)
    | 'n' :: rest => ("ull".toList.isPrefixOf? rest).map (.null, ·)
    | 't' :: rest => ("rue".toList.isPrefixOf? rest).map (.bool true, ·)
    | 'f' :: rest => ("alse".toList.isPrefixOf? rest).map (.bool false, ·)
    | rest => readNumber? rest

def readItems? (fuel depth : Nat) (cs : List Char) : Option (List Json × List Char) :=
  match fuel with
  | 0 => none
  | fuel + 1 => do
    let (item, rest) ← readValue? fuel depth cs
    match skipBlanks rest with
    | ']' :: rest => some ([item], rest)
    | ',' :: rest =>
      let (items, rest) ← readItems? fuel depth rest
      some (item :: items, rest)
    | _ => none

def readFields? (fuel depth : Nat) (cs : List Char) : Option (List (String × Json) × List Char) :=
  match fuel with
  | 0 => none
  | fuel + 1 =>
    match skipBlanks cs with
    | '"' :: rest => do
      let (name, rest) ← readText? (rest.length + 1) rest
      match skipBlanks rest with
      | ':' :: rest =>
        let (value, rest) ← readValue? fuel depth rest
        let field := (String.ofList name, value)
        match skipBlanks rest with
        | '\x7d' :: rest => some ([field], rest)
        | ',' :: rest =>
          let (fields, rest) ← readFields? fuel depth rest
          some (field :: fields, rest)
        | _ => none
      | _ => none
    | _ => none

end

def maxDepth : Nat := 127

/-- Reads a text that holds one JSON value and nothing else. -/
def parse? (text : String) : Option Json :=
  let cs := text.toList
  match readValue? (2 * cs.length + 2) maxDepth cs with
  | some (value, rest) => if (skipBlanks rest).isEmpty then some value else none
  | none => none

end MeetingCalendar.Json
