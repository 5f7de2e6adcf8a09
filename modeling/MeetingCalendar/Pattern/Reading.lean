import MeetingCalendar.Date.Basic
import MeetingCalendar.Pattern.Basic
import MeetingCalendar.Text.Blank
import MeetingCalendar.Text.Integer
import MeetingCalendar.TimeOfDay

/-!
# Reading dates and times by a pattern

A text is read token by token into `Fields`, which remember what has been said so far; a field that
is said twice must be said the same way.  A blank literal takes any number of blanks, any other
literal takes itself, and the text must be used up.  A date then needs year, month and day, and a
weekday that was named must be the right one; a time needs hour and minute.
-/

namespace MeetingCalendar

namespace Pattern

/-- What has been read of a date and a time. -/
structure Fields where
  year : Option Int := none
  yearOfCentury : Option Nat := none
  month : Option Nat := none
  day : Option Nat := none
  weekday : Option Weekday := none
  afternoon : Option Bool := none
  hourOfHalf : Option Nat := none
  minute : Option Nat := none
  second : Option Nat := none
  deriving DecidableEq, Repr

/-- Sets a field that is unset or has the same value. -/
def agree? {α : Type} [DecidableEq α] (old : Option α) (new : α) : Option (Option α) :=
  match old with
  | none => some (some new)
  | some value => if value = new then some old else none

def monthNames : List String :=
  ["January", "February", "March", "April", "May", "June", "July", "August", "September",
    "October", "November", "December"]

/-- The name of a month, from 1. -/
def monthName (month : Nat) : String :=
  (monthNames[month - 1]?).getD ""

/-- Drops a word from the front of a text, in any case of its ASCII letters. -/
def dropWord? : List Char → List Char → Option (List Char)
  | [], cs => some cs
  | w :: ws, c :: cs => if w.toLower = c.toLower then dropWord? ws cs else none
  | _ :: _, [] => none

/-- Drops a name from the front of a text: its first three letters must be there, and when `long`
is set the other letters are dropped as well if they follow. -/
def dropName? (long : Bool) (name cs : List Char) : Option (List Char) :=
  (dropWord? (name.take 3) cs).map fun rest ↦
    if long then (dropWord? (name.drop 3) rest).getD rest else rest

def readMonthName? (long : Bool) (cs : List Char) : Option (Nat × List Char) :=
  (List.range 12).findSome? fun i ↦
    (dropName? long (monthName (i + 1)).toList cs).map (i + 1, ·)

def readWeekdayName? (long : Bool) (cs : List Char) : Option (Weekday × List Char) :=
  Weekday.all.findSome? fun w ↦ (dropName? long w.name.toList cs).map (w, ·)

/-- Reads one digit or more, but at most `width` when there is a limit. -/
def readDigitRun? (width : Option Nat) (cs : List Char) : Option (Nat × List Char) :=
  let digits := cs.takeWhile Char.isDigit
  let taken := match width with
    | some width => digits.take width
    | none => digits
  if taken.isEmpty then none else some (Nat.ofDigitChars 10 taken 0, cs.drop taken.length)

/-- Reads one or two digits behind any number of blanks. -/
def readPair? (cs : List Char) : Option (Nat × List Char) :=
  readDigitRun? (some 2) (Text.trimStart cs)

/-- Reads a year behind any number of blanks: up to four digits, or a sign and any number of
them. -/
def readYear? (cs : List Char) : Option (Int × List Char) :=
  match Text.trimStart cs with
  | '-' :: cs => (readDigitRun? none cs).map fun (n, rest) ↦ (-(n : Int), rest)
  | '+' :: cs => (readDigitRun? none cs).map fun (n, rest) ↦ ((n : Int), rest)
  | cs => (readDigitRun? (some 4) cs).map fun (n, rest) ↦ ((n : Int), rest)

def within? (min max n : Nat) : Option Nat :=
  if min ≤ n && n ≤ max then some n else none

/-- Reads whether it is before or after noon. -/
def readHalf? (cs : List Char) : Option (Bool × List Char) :=
  match dropWord? "AM".toList cs with
  | some rest => some (false, rest)
  | none => (dropWord? "PM".toList cs).map (true, ·)

namespace Fields

def setHour? (fields : Fields) (hour : Nat) : Option Fields := do
  let afternoon ← agree? fields.afternoon (12 ≤ hour)
  let hourOfHalf ← agree? fields.hourOfHalf (hour % 12)
  some { fields with afternoon, hourOfHalf }

def readField? (fields : Fields) (field : Field) (cs : List Char) : Option (Fields × List Char) :=
  match field with
  | .year => do
    let (n, rest) ← readYear? cs
    -- a year that 32 bits do not hold is no year
    if n < Text.minInt32 ∨ Text.maxInt32 < n then none
    let year ← agree? fields.year n
    some ({ fields with year }, rest)
  | .yearOfCentury => do
    let (n, rest) ← readPair? cs
    let yearOfCentury ← agree? fields.yearOfCentury n
    some ({ fields with yearOfCentury }, rest)
  | .month => do
    let (n, rest) ← readPair? cs
    let month ← agree? fields.month (← within? 1 12 n)
    some ({ fields with month }, rest)
  | .monthShort => do
    let (n, rest) ← readMonthName? false cs
    let month ← agree? fields.month n
    some ({ fields with month }, rest)
  | .monthLong => do
    let (n, rest) ← readMonthName? true cs
    let month ← agree? fields.month n
    some ({ fields with month }, rest)
  | .day => do
    let (n, rest) ← readPair? cs
    let day ← agree? fields.day (← within? 1 31 n)
    some ({ fields with day }, rest)
  | .hour => do
    let (n, rest) ← readPair? cs
    let fields ← fields.setHour? (← within? 0 23 n)
    some (fields, rest)
  | .hourOfHalf => do
    let (n, rest) ← readPair? cs
    let hourOfHalf ← agree? fields.hourOfHalf ((← within? 1 12 n) % 12)
    some ({ fields with hourOfHalf }, rest)
  | .minute => do
    let (n, rest) ← readPair? cs
    let minute ← agree? fields.minute (← within? 0 59 n)
    some ({ fields with minute }, rest)
  | .second => do
    let (n, rest) ← readPair? cs
    let second ← agree? fields.second (← within? 0 60 n)
    some ({ fields with second }, rest)
  | .half => do
    let (later, rest) ← readHalf? cs
    let afternoon ← agree? fields.afternoon later
    some ({ fields with afternoon }, rest)
  | .weekdayShort => do
    let (w, rest) ← readWeekdayName? false cs
    let weekday ← agree? fields.weekday w
    some ({ fields with weekday }, rest)
  | .weekdayLong => do
    let (w, rest) ← readWeekdayName? true cs
    let weekday ← agree? fields.weekday w
    some ({ fields with weekday }, rest)

/-- Reads a text to its end, token by token. -/
def read? (fields : Fields) : List Token → List Char → Option Fields
  | [], cs => if cs.isEmpty then some fields else none
  | .field field :: tokens, cs => do
    let (fields, rest) ← fields.readField? field cs
    read? fields tokens rest
  | .literal l :: tokens, cs =>
    if Text.isBlankChar l then read? fields tokens (Text.trimStart cs)
    else
      match cs with
      | c :: rest => if c = l then read? fields tokens rest else none
      | [] => none

/-- The year that was said: in full, by its last two digits from 1970 to 2069, or in both ways if
they agree. -/
def year? (fields : Fields) : Option Int :=
  match fields.year, fields.yearOfCentury with
  | some year, none => some year
  | some year, some n => if 0 ≤ year ∧ year % 100 = n then some year else none
  | none, some n => some (if n < 70 then 2000 + n else 1900 + n)
  | none, none => none

def date? (fields : Fields) : Option Date := do
  let date ← Date.ofParts? (← fields.year?) (← fields.month) (← fields.day)
  match fields.weekday with
  | none => some date
  | some weekday => if date.weekday = weekday then some date else none

/-- The time of day that was said; without a second it is the full minute. -/
def time? (fields : Fields) : Option TimeOfDay := do
  let hour := (if ← fields.afternoon then 12 else 0) + (← fields.hourOfHalf)
  TimeOfDay.ofParts? hour (← fields.minute) (fields.second.getD 0)

end Fields

def readDateBy? (tokens : List Token) (cs : List Char) : Option Date :=
  (Fields.read? {} tokens cs).bind Fields.date?

def readTimeBy? (tokens : List Token) (cs : List Char) : Option TimeOfDay :=
  (Fields.read? {} tokens cs).bind Fields.time?

/-- Reads a date whose blank ends do not matter. -/
def readDate? (pattern : Pattern) (text : String) : Option Date :=
  readDateBy? pattern.tokens (Text.trimChars text.toList)

def readTime? (pattern : Pattern) (text : String) : Option TimeOfDay :=
  readTimeBy? pattern.tokens (Text.trimChars text.toList)

end Pattern

/-- The tokens of year, month and day with hyphens between them; blanks may stand in front of each
hyphen and at the end. -/
def Date.textTokens : List Pattern.Token :=
  [.field .year, .literal ' ', .literal '-', .field .month, .literal ' ', .literal '-',
    .field .day, .literal ' ']

def Date.read? (text : String) : Option Date :=
  Pattern.readDateBy? Date.textTokens text.toList

end MeetingCalendar
