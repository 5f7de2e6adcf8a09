import MeetingCalendar.Coded
import MeetingCalendar.Text.Blank
import MeetingCalendar.Violation.Basic

/-!
# Checks

A check looks at the reading of a parameter and passes it, fails it with a constraint, or ends the
checking.  Checks form chains: a chain runs its checks in order and stops at the first one that
fails or ends it, so it finds at most one violation.  A value of the wrong kind fails every check
that looks at the value; a missing value passes all but `notNull`, `notBlank` and `notEmpty`.
-/

namespace MeetingCalendar

/-- What a check says. -/
inductive Verdict where
  | pass
  | stop
  | fail (constraint : Constraint)
  deriving DecidableEq, Repr

abbrev Check (α : Type) := Reading α → Verdict

namespace Check

variable {α : Type}

/-- Fails a missing value. -/
def notNull : Check α := fun reading ↦
  if reading.isMissing then .fail .cannotBeBlank else .pass

/-- Ends the chain at a missing value. -/
def ignoreIfNull : Check α := fun reading ↦
  if reading.isMissing then .stop else .pass

/-- Fails a value that does not pass a test. -/
def satisfies (test : α → Bool) (constraint : Constraint) : Check α
  | .value v _ => if test v then .pass else .fail constraint
  | .invalid _ expected => .fail (.ofExpected expected)
  | .absent => .pass
  | .null => .pass

/-- Fails a value of the wrong kind only. -/
def wellFormed : Check α
  | .invalid _ expected => .fail (.ofExpected expected)
  | _ => .pass

/-- Fails a missing value and one that counts as empty; a value of the wrong kind passes. -/
def nonempty (isEmpty : α → Bool) : Check α
  | .value v _ => if isEmpty v then .fail .cannotBeBlank else .pass
  | .invalid _ _ => .pass
  | .absent => .fail .cannotBeBlank
  | .null => .fail .cannotBeBlank

def notBlank : Check String :=
  nonempty Text.isBlank

def maxLength (max : Nat) : Check String :=
  satisfies (fun s ↦ s.length ≤ max) (.exceedsMaxLength max)

def inRange (min max : Int) : Check Int :=
  satisfies (fun n ↦ min ≤ n && n ≤ max) (.notWithinRange min max)

def inRangeOf (choice : Type) [Coded choice] : Check Int :=
  inRange (Coded.minCode choice) (Coded.maxCode choice)

def positive : Check Int :=
  satisfies (fun n ↦ 0 < n) .notGreaterThanZero

def notEmpty : Check (List Int) :=
  nonempty List.isEmpty

def eachInRangeOf (choice : Type) [Coded choice] : Check (List Int) :=
  satisfies (fun ns ↦ ns.all (Coded.accepts choice))
    (.notWithinRange (Coded.minCode choice) (Coded.maxCode choice))

end Check

/-- How far a chain of checks has come. -/
inductive Chain where
  | running
  | ended
  | failed (constraint : Constraint)
  deriving DecidableEq, Repr

namespace Chain

variable {α : Type}

/-- Runs one more check, unless the chain is over. -/
def step (reading : Reading α) (chain : Chain) (check : Check α) : Chain :=
  match chain with
  | running =>
    match check reading with
    | .pass => running
    | .stop => ended
    | .fail constraint => failed constraint
  | chain => chain

def run (reading : Reading α) (checks : List (Check α)) : Chain :=
  checks.foldl (step reading) running

def isDone : Chain → Bool
  | running => false
  | _ => true

def constraint? : Chain → Option Constraint
  | failed constraint => some constraint
  | _ => none

end Chain

/-- The violations that a chain of checks finds in a parameter: at most one. -/
def Violation.ofChecks {α : Type} (parameter : String) (reading : Reading α)
    (checks : List (Check α)) : List Violation :=
  ((Chain.run reading checks).constraint?.map fun constraint ↦
    ⟨parameter, Json.orNull reading.raw?, constraint⟩).toList

end MeetingCalendar
