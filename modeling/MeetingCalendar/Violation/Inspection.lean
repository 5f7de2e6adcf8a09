import MeetingCalendar.Violation.Check

/-!
# Inspecting a parameter

An inspection looks at the reading of one parameter, check after check, and adds what it finds to a
report that may already hold violations of other parameters.  It is done once a check has failed or
has ended it.  Nothing keeps further checks from being run on an inspection that is done, so every
check has to see to it by itself that it then adds nothing.
-/

namespace MeetingCalendar

structure Inspection (α : Type) where
  report : Report
  parameter : String
  reading : Reading α
  isDone : Bool

def Report.inspect {α : Type} (report : Report) (parameter : String) (reading : Reading α) :
    Inspection α where
  report := report
  parameter := parameter
  reading := reading
  isDone := false

namespace Inspection

variable {α : Type}

/-- Adds a violation, after which the inspection is done. -/
def fail (i : Inspection α) (constraint : Constraint) : Inspection α :=
  { i with
    report := i.report.add ⟨i.parameter, Json.orNull i.reading.raw?, constraint⟩
    isDone := true }

/-- The value to look at, if there is one and the inspection is not done; a value of the wrong kind
is a violation. -/
def current (i : Inspection α) : Option α × Inspection α :=
  if i.isDone then (none, i)
  else
    match i.reading with
    | .value v _ => (some v, i)
    | .invalid _ expected => (none, i.fail (.ofExpected expected))
    | .absent => (none, i)
    | .null => (none, i)

def notNull (i : Inspection α) : Inspection α :=
  if !i.isDone && i.reading.isMissing then i.fail .cannotBeBlank else i

/-- Ends the inspection of a missing value. -/
def ignoreIfNull (i : Inspection α) : Inspection α :=
  if i.reading.isMissing then { i with isDone := true } else i

def wellFormed (i : Inspection α) : Inspection α :=
  i.current.2

def satisfies (test : α → Bool) (constraint : Constraint) (i : Inspection α) : Inspection α :=
  match i.current with
  | (some v, i) => if test v then i else i.fail constraint
  | (none, i) => i

def nonempty (isEmpty : α → Bool) (i : Inspection α) : Inspection α :=
  if i.isDone then i
  else
    let empty := match i.reading with
      | .value v _ => isEmpty v
      | .absent => true
      | .null => true
      | .invalid _ _ => false
    if empty then i.fail .cannotBeBlank else i

def inRange (min max : Int) : Inspection Int → Inspection Int :=
  satisfies (fun n ↦ min ≤ n && n ≤ max) (.notWithinRange min max)

end Inspection

/-- The checks that there are for values of a kind. -/
inductive NamedCheck : Type → Type 1 where
  | notNull {α : Type} : NamedCheck α
  | ignoreIfNull {α : Type} : NamedCheck α
  | wellFormed {α : Type} : NamedCheck α
  | satisfies {α : Type} (test : α → Bool) (constraint : Constraint) : NamedCheck α
  | notBlank : NamedCheck String
  | maxLength (max : Nat) : NamedCheck String
  | inRange (min max : Int) : NamedCheck Int
  | inRangeOf (choice : Type) [Coded choice] : NamedCheck Int
  | positive : NamedCheck Int
  | notEmpty : NamedCheck (List Int)
  | eachInRangeOf (choice : Type) [Coded choice] : NamedCheck (List Int)

namespace NamedCheck

def inspect : {α : Type} → NamedCheck α → Inspection α → Inspection α
  | _, notNull => Inspection.notNull
  | _, ignoreIfNull => Inspection.ignoreIfNull
  | _, wellFormed => Inspection.wellFormed
  | _, satisfies test constraint => Inspection.satisfies test constraint
  | _, notBlank => Inspection.nonempty Text.isBlank
  | _, maxLength max => Inspection.satisfies (fun s ↦ s.length ≤ max) (.exceedsMaxLength max)
  | _, inRange min max => Inspection.inRange min max
  | _, inRangeOf choice => Inspection.inRange (Coded.minCode choice) (Coded.maxCode choice)
  | _, positive => Inspection.satisfies (fun n ↦ 0 < n) .notGreaterThanZero
  | _, notEmpty => Inspection.nonempty List.isEmpty
  | _, eachInRangeOf choice =>
    Inspection.satisfies (fun ns ↦ ns.all (Coded.accepts choice))
      (.notWithinRange (Coded.minCode choice) (Coded.maxCode choice))

/-- What a check says of a reading. -/
def check : {α : Type} → NamedCheck α → Check α
  | _, notNull => Check.notNull
  | _, ignoreIfNull => Check.ignoreIfNull
  | _, wellFormed => Check.wellFormed
  | _, satisfies test constraint => Check.satisfies test constraint
  | _, notBlank => Check.notBlank
  | _, maxLength max => Check.maxLength max
  | _, inRange min max => Check.inRange min max
  | _, inRangeOf choice => Check.inRangeOf choice
  | _, positive => Check.positive
  | _, notEmpty => Check.notEmpty
  | _, eachInRangeOf choice => Check.eachInRangeOf choice

end NamedCheck

def Inspection.run {α : Type} (i : Inspection α) (checks : List (NamedCheck α)) : Inspection α :=
  checks.foldl (fun i check ↦ check.inspect i) i

end MeetingCalendar
