import MeetingCalendar.Entity
import MeetingCalendar.Error
import MeetingCalendar.Violation.Check

/-!
# Validation of requests

The constraints on a request to create or to update an event.  On creation the title, the start date
and the type are mandatory; an update is checked only in what it supplies, except that a meeting is
moved from one date to another only if both are given.  Every violation is found, not only the
first, and each section of a request is checked on its own.
-/

namespace MeetingCalendar

/-- What a request is for. -/
inductive Mode where
  | create
  | update
  deriving DecidableEq, Repr

namespace Request

/-- The violations of a section when it is to be checked at all. -/
def checkIf (applies : Bool) (violations : List Violation) : List Violation :=
  if applies then violations else []

/-- A parameter is checked on creation, and on an update if it is supplied. -/
def isChecked (r : Request) (mode : Mode) (name : String) : Bool :=
  mode == .create || r.has name

/-- The violations of a flag that may be left out but not null. -/
def flagViolations (r : Request) (name : String) : List Violation :=
  checkIf (r.has name) (Violation.ofChecks name (r.boolean name) [Check.notNull, Check.wellFormed])

def isSet (r : Request) (name : String) : Bool :=
  (r.boolean name).value? == some true

/-- The violations of a date that must be there. -/
def dateViolations (r : Request) (name : String) : List Violation :=
  Violation.ofChecks name (r.date name) [Check.notNull, Check.wellFormed]

/-- The violations of a text that may be left out or null. -/
def optionalTextViolations (r : Request) (name : String) (max : Nat) : List Violation :=
  checkIf (r.has name)
    (Violation.ofChecks name (r.text name) [Check.ignoreIfNull, Check.maxLength max])

/-- Moving a meeting: with the flag set, both dates must be there. -/
def rescheduleViolations (r : Request) : List Violation :=
  let moves := r.isSet Parameter.rescheduleBasedOnMeetingDates
  r.flagViolations Parameter.rescheduleBasedOnMeetingDates ++
    [Parameter.presentMeetingDate, Parameter.newMeetingDate].flatMap fun name ↦
      checkIf (moves || r.has name) (r.dateViolations name)

def titleViolations (policy : RequestPolicy) (mode : Mode) (r : Request) : List Violation :=
  checkIf (r.isChecked mode Parameter.title)
    (Violation.ofChecks Parameter.title (r.text Parameter.title)
      [Check.notBlank, Check.maxLength policy.titleMaxLength])

/-- The event must not end before it starts. -/
def orderViolations (r : Request) : List Violation :=
  match r.date Parameter.startDate, r.date Parameter.endDate with
  | .value start _, .value stop raw =>
    if stop < start then [⟨Parameter.endDate, raw, .beforeStartDate⟩] else []
  | _, _ => []

def dateRangeViolations (mode : Mode) (r : Request) : List Violation :=
  checkIf (r.isChecked mode Parameter.startDate) (r.dateViolations Parameter.startDate) ++
    checkIf (r.has Parameter.endDate) (r.dateViolations Parameter.endDate ++ r.orderViolations)

def durationViolations (r : Request) : List Violation :=
  checkIf (r.has Parameter.duration)
    (Violation.ofChecks Parameter.duration (r.integer Parameter.duration)
      [Check.ignoreIfNull, Check.wellFormed])

def typeViolations (mode : Mode) (r : Request) : List Violation :=
  checkIf (r.isChecked mode Parameter.typeId)
    (Violation.ofChecks Parameter.typeId (r.integer Parameter.typeId)
      [Check.notNull, Check.inRangeOf EntityType])

def frequencyViolations (r : Request) : List Violation :=
  Violation.ofChecks Parameter.frequency (r.integer Parameter.frequency)
      [Check.notNull, Check.inRangeOf Frequency] ++
    checkIf (r.has Parameter.interval)
      (Violation.ofChecks Parameter.interval (r.integer Parameter.interval)
        [Check.notNull, Check.positive, Check.inRange 1 Recurrence.maxInterval])

/-- A weekly event needs its weekdays on creation. -/
def weeklyViolations (mode : Mode) (r : Request) : List Violation :=
  checkIf (r.isChecked mode Parameter.repeatsOnDay)
    (Violation.ofChecks Parameter.repeatsOnDay (r.integers Parameter.repeatsOnDay)
      [Check.notEmpty, Check.eachInRangeOf Weekday])

/-- The two ways of naming a weekday of the month exclude each other. -/
def exclusionViolations (r : Request) : List Violation :=
  let nth := r.integer Parameter.repeatsOnNthDayOfMonth
  let last := r.integer Parameter.repeatsOnLastWeekdayOfMonth
  checkIf (!nth.isMissing && !last.isMissing)
    [⟨Parameter.repeatsOnLastWeekdayOfMonth, Json.orNull last.raw?,
      .mutuallyExclusive Parameter.repeatsOnNthDayOfMonth⟩]

/-- A monthly event may name a weekday of the month by its place or as the last one; a usable place
needs the weekday as well. -/
def monthlyViolations (r : Request) : List Violation :=
  let nth := r.integer Parameter.repeatsOnNthDayOfMonth
  let last := r.integer Parameter.repeatsOnLastWeekdayOfMonth
  Violation.ofChecks Parameter.repeatsOnNthDayOfMonth nth
      [Check.ignoreIfNull, Check.inRangeOf Ordinal] ++
    Violation.ofChecks Parameter.repeatsOnLastWeekdayOfMonth last
      [Check.ignoreIfNull, Check.inRangeOf Weekday] ++
    r.exclusionViolations ++
    checkIf (nth.value?.any (Coded.accepts Ordinal))
      (Violation.ofChecks Parameter.repeatsOnDay (r.integer Parameter.repeatsOnDay)
        [Check.notNull, Check.inRangeOf Weekday])

def repeatDayViolations (mode : Mode) (r : Request) : List Violation :=
  match (r.integer Parameter.frequency).value?.bind (Coded.ofCode? (α := Frequency)) with
  | some .weekly => r.weeklyViolations mode
  | some .monthly => r.monthlyViolations
  | _ => []

def repeatViolations (mode : Mode) (r : Request) : List Violation :=
  r.flagViolations Parameter.repeating ++
    checkIf (r.isSet Parameter.repeating) (r.frequencyViolations ++ r.repeatDayViolations mode)

def remindByViolations (r : Request) : List Violation :=
  checkIf (r.has Parameter.remindById)
    (Violation.ofChecks Parameter.remindById (r.integer Parameter.remindById)
      [Check.ignoreIfNull, Check.inRangeOf RemindBy])

/-- The checks on a reminder offset, which must be greater than zero on creation and, if the policy
says so, on updates. -/
def offsetChecks (policy : RequestPolicy) (mode : Mode) : List (Check Int) :=
  [Check.ignoreIfNull, Check.wellFormed] ++
    if mode == .create || policy.offsetsOnUpdate == .positive then [Check.positive] else []

def offsetViolations (policy : RequestPolicy) (mode : Mode) (r : Request) (name : String) :
    List Violation :=
  checkIf (r.has name) (Violation.ofChecks name (r.integer name) (offsetChecks policy mode))

def meetingTimeViolations (r : Request) : List Violation :=
  checkIf (r.has Parameter.meetingTime)
    (Violation.ofChecks Parameter.meetingTime (r.time Parameter.meetingTime)
      [Check.ignoreIfNull, Check.wellFormed])

/-- The violations of a request, section by section. -/
def violations (policy : RequestPolicy) (mode : Mode) (r : Request) : List Violation :=
  checkIf (mode == .update) r.rescheduleViolations ++
    r.titleViolations policy mode ++
    r.optionalTextViolations Parameter.description policy.descriptionMaxLength ++
    r.optionalTextViolations Parameter.location policy.locationMaxLength ++
    r.dateRangeViolations mode ++
    r.durationViolations ++
    r.typeViolations mode ++
    r.repeatViolations mode ++
    r.remindByViolations ++
    r.offsetViolations policy mode Parameter.firstReminderOffset ++
    r.offsetViolations policy mode Parameter.secondReminderOffset ++
    r.meetingTimeViolations

def validate (policy : RequestPolicy) (mode : Mode) (r : Request) : Except CalendarError Unit :=
  Violation.toResult (r.violations policy mode)

end Request

end MeetingCalendar
