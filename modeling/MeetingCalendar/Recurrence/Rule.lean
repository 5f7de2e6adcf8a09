import MeetingCalendar.Recurrence.Error
import MeetingCalendar.Rule.Parser
import MeetingCalendar.Text.Blank

/-!
# Recurrences as rules

Every recurrence has a rule, and its written form is a text for that rule.  Reading goes the other
way and is stricter than the grammar of rules: a rule that counts in units below a day, or that any
part besides the interval and the weekdays restricts, is refused and never read as something weaker.
-/

namespace MeetingCalendar

/-- Why a text is not the rule of a recurrence. -/
inductive RuleError where
  | empty
  | grammar (cause : Rule.SyntaxError)
  | unsupportedPart (part : Rule.Part)
  | unsupportedUnit (unit : Rule.Unit)
  | daysNotAllowed (frequency : Frequency)
  | weeklyWithoutDays
  | weeklyPlace
  | monthlyDays
  | monthlyPlace (place : Int)
  | recurrence (cause : RecurrenceError)
  deriving DecidableEq, Repr

namespace RuleError

def message : RuleError → String
  | empty => "empty rule"
  | grammar cause => "RRule parsing error: " ++ cause.message
  | unsupportedPart part => "unsupported rule part: " ++ part.key
  | unsupportedUnit unit => "unsupported frequency: " ++ unit.name
  | daysNotAllowed frequency => "BYDAY is not supported with FREQ=" ++ frequency.keyword
  | weeklyWithoutDays => "weekly rule needs BYDAY"
  | weeklyPlace => "weekly BYDAY entries cannot carry ordinals"
  | monthlyDays => "monthly BYDAY must be a single weekday with an ordinal"
  | monthlyPlace place => "unsupported monthly ordinal: " ++ toString place
  | recurrence cause => cause.describe

def describe (e : RuleError) : String :=
  "Invalid RRULE: " ++ e.message

end RuleError

/-- The weekday entries of a repeat pattern. -/
def Repeat.toDays : Repeat → List Rule.Day
  | daily => []
  | yearly => []
  | weekly days => days.toList.map (⟨none, ·⟩)
  | monthly .sameDay => []
  | monthly (.nth ordinal weekday) => [⟨some ordinal.number, weekday⟩]
  | monthly (.last weekday) => [⟨some (-1), weekday⟩]

/-- The weekdays of a weekly rule; none of its entries may have a place. -/
def Repeat.weeklyOfDays (days : List Rule.Day) : Except RuleError Repeat :=
  if days.isEmpty then .error .weeklyWithoutDays
  else if days.any fun day ↦ day.place.isSome then .error .weeklyPlace
  else .ok (.weekly (.ofList (days.map Rule.Day.weekday)))

/-- The day of the month of a monthly rule: none or one weekday, with a place from the first to the
fifth or as the last. -/
def MonthlyDay.ofDays : List Rule.Day → Except RuleError MonthlyDay
  | [] => .ok .sameDay
  | [⟨some place, weekday⟩] =>
    if place = -1 then .ok (.last weekday)
    else
      match Coded.ofCode? (α := Ordinal) place with
      | some ordinal => .ok (.nth ordinal weekday)
      | none => .error (.monthlyPlace place)
  | _ => .error .monthlyDays

def Repeat.ofDays (frequency : Frequency) (days : List Rule.Day) : Except RuleError Repeat :=
  match frequency with
  | .daily => if days.isEmpty then .ok .daily else .error (.daysNotAllowed .daily)
  | .yearly => if days.isEmpty then .ok .yearly else .error (.daysNotAllowed .yearly)
  | .weekly => weeklyOfDays days
  | .monthly => (MonthlyDay.ofDays days).map .monthly

/-- The list of weekdays in the written form of a pattern that has one. -/
def Repeat.daysText? : Repeat → Option String
  | daily => none
  | yearly => none
  | weekly days => some (",".intercalate (days.toList.map Weekday.code))
  | monthly .sameDay => none
  | monthly (.nth ordinal weekday) => some (toString ordinal.number ++ weekday.code)
  | monthly (.last weekday) => some ("-1" ++ weekday.code)

namespace Recurrence

def toRule (r : Recurrence) : Rule :=
  ⟨.ofFrequency r.frequency, r.interval, r.pattern.toDays, []⟩

/-- The rule of a recurrence, or the reason why it has none: rules hold intervals of 16 bits. -/
def rule (r : Recurrence) : Except RecurrenceError Rule :=
  if r.interval ≤ Text.maxNat16 then .ok r.toRule
  else .error (.intervalTooLargeForRule r.interval)

/-- The parts of the written form; an interval of one is left out. -/
def textParts (r : Recurrence) : List String :=
  ["FREQ=" ++ r.frequency.keyword] ++
    (if r.interval = 1 then [] else ["INTERVAL=" ++ toString r.interval]) ++
    r.pattern.daysText?.toList.map ("BYDAY=" ++ ·)

def toText (r : Recurrence) : String :=
  ";".intercalate r.textParts

instance : ToString Recurrence := ⟨toText⟩

def ofRule (rule : Rule) : Except RuleError Recurrence :=
  match rule.others with
  | part :: _ => .error (.unsupportedPart part)
  | [] =>
    match rule.unit.frequency? with
    | none => .error (.unsupportedUnit rule.unit)
    | some frequency => do
      let pattern ← Repeat.ofDays frequency rule.days
      (make rule.interval pattern).mapError .recurrence

/-- The rule in a text: blank ends, the case of ASCII letters and one `RRULE:` in front do not
matter. -/
def ruleChars (text : String) : List Char :=
  let cs := (Text.trimChars text.toList).map Char.toUpper
  ("RRULE:".toList.isPrefixOf? cs).getD cs

def parse (text : String) : Except RuleError Recurrence :=
  let cs := ruleChars text
  if cs.isEmpty then .error .empty
  else (Rule.parse cs).mapError .grammar >>= ofRule

end Recurrence

end MeetingCalendar
