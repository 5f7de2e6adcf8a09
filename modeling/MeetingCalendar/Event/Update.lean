import MeetingCalendar.Error
import MeetingCalendar.Event.Encoding
import MeetingCalendar.Recurrence.Anchor

/-!
# Updating events

An update changes the fields that it names and leaves the others.  It may make an event repeat or
stop repeating, and it may move the schedule so that one of its meetings falls on a new date.  An
update succeeds as a whole or not at all, and tells which fields it changed.
-/

namespace MeetingCalendar

/-- The parts of a recurrence that an update supplies; the current recurrence supplies the rest. -/
structure RecurrencePatch where
  frequency : Option Frequency := none
  interval : Option Nat := none
  weekdays : Option WeekdaySet := none
  monthlyDay : Option MonthlyDay := none
  deriving DecidableEq, Repr

inductive RepeatUpdate where
  | off
  | on (patch : RecurrencePatch)
  deriving DecidableEq, Repr

/-- Moves a schedule so that the meeting on one date falls on another. -/
structure Reschedule where
  present : Date
  new : Date
  deriving DecidableEq, Repr

/-- A change of some fields.  For a field that may be empty `some none` empties it. -/
structure EventUpdate where
  title : Option String := none
  description : Option (Option String) := none
  location : Option (Option String) := none
  startDate : Option Date := none
  endDate : Option (Option Date) := none
  duration : Option (Option Int) := none
  entityType : Option EntityType := none
  repeating : Option RepeatUpdate := none
  remindBy : Option (Option RemindBy) := none
  firstReminderOffset : Option (Option Int) := none
  secondReminderOffset : Option (Option Int) := none
  meetingTime : Option (Option TimeOfDay) := none
  reschedule : Option Reschedule := none
  deriving DecidableEq

/-- The fields that an update changed, with their new values. -/
abbrev Changes := List (String × Json)

namespace RecurrencePatch

/-- The repeat pattern that a patch makes of the current recurrence of an event that starts on a
date.  Weekdays default to that of the start date, a monthly day to the day of the month. -/
def pattern (patch : RecurrencePatch) (current : Option Recurrence) (start : Date) : Repeat :=
  let frequency := (patch.frequency.or (current.map Recurrence.frequency)).getD .weekly
  match frequency with
  | .daily => .daily
  | .weekly =>
    .weekly ((patch.weekdays.or (current.bind Recurrence.weekdays?)).getD
      (.singleton start.weekday))
  | .monthly =>
    .monthly ((patch.monthlyDay.or (current.bind Recurrence.monthlyDay?)).getD .sameDay)
  | .yearly => .yearly

def apply (patch : RecurrencePatch) (current : Option Recurrence) (start : Date) :
    Except CalendarError Recurrence :=
  let interval := (patch.interval.or (current.map Recurrence.interval)).getD 1
  Recurrence.create interval (patch.pattern current start)

end RecurrencePatch

namespace Event

/-- Sets the fields that do not concern repeating. -/
def setFields (e : Event) (u : EventUpdate) : Event :=
  { e with
    title := u.title.getD e.title
    description := u.description.getD e.description
    location := u.location.getD e.location
    startDate := u.startDate.getD e.startDate
    endDate := u.endDate.getD e.endDate
    duration := u.duration.getD e.duration
    entityType := u.entityType.getD e.entityType
    remindBy := u.remindBy.getD e.remindBy
    firstReminderOffset := u.firstReminderOffset.getD e.firstReminderOffset
    secondReminderOffset := u.secondReminderOffset.getD e.secondReminderOffset
    meetingTime := u.meetingTime.getD e.meetingTime }

def setRepeating (e : Event) : Option RepeatUpdate → Except CalendarError Event
  | none => .ok e
  | some .off => .ok { e with repeating := false, recurrence := none }
  | some (.on patch) => (patch.apply e.recurrence e.startDate).map e.withRecurrence

/-- Moves the start and the recurrence to a new date. -/
def moveTo (e : Event) (d : Date) : Event :=
  { e with startDate := d, recurrence := e.recurrence.map fun r ↦ r.anchoredOn d }

/-- Refuses to move a meeting from a date on which the event does not meet. -/
def checkReschedule (e : Event) : Option Reschedule → Except CalendarError Unit
  | none => .ok ()
  | some r =>
    if e.isMeetingDate r.present then .ok ()
    else Violation.toResult
      [⟨Parameter.presentMeetingDate, encode r.present, .notAnOccurrence⟩]

/-- Refuses an event that ends before it starts. -/
def checkOrder (e : Event) : Except CalendarError Unit :=
  match e.endDate with
  | none => .ok ()
  | some stop =>
    if stop < e.startDate then
      Violation.toResult [⟨Parameter.endDate, encode stop, .beforeStartDate⟩]
    else .ok ()

/-- A field with its new value, if that differs from the old one. -/
def change {α : Type} [DecidableEq α] [Encode α] (name : String) (old new : α) : Changes :=
  if old = new then [] else [(name, encode new)]

/-- The fields in which one event differs from another, with the values of the other. -/
def changesTo (e next : Event) : Changes :=
  change Parameter.title e.title next.title ++
    change Parameter.description e.description next.description ++
    change Parameter.location e.location next.location ++
    change Parameter.startDate e.startDate next.startDate ++
    change Parameter.endDate e.endDate next.endDate ++
    change Parameter.duration e.duration next.duration ++
    change Parameter.typeId e.entityType next.entityType ++
    change Parameter.repeating e.repeating next.repeating ++
    change "recurrence" e.recurrence next.recurrence ++
    change Parameter.remindById e.remindBy next.remindBy ++
    change Parameter.firstReminderOffset e.firstReminderOffset next.firstReminderOffset ++
    change Parameter.secondReminderOffset e.secondReminderOffset next.secondReminderOffset ++
    change Parameter.meetingTime e.meetingTime next.meetingTime

def updated (e : Event) (u : EventUpdate) : Except CalendarError Event := do
  e.checkReschedule u.reschedule
  let next ← (e.setFields u).setRepeating u.repeating
  let next := match u.reschedule with
    | some r => next.moveTo r.new
    | none => next
  next.checkOrder
  return next

def update (e : Event) (u : EventUpdate) : Except CalendarError (Event × Changes) := do
  let next ← e.updated u
  return (next, e.changesTo next)

end Event

end MeetingCalendar
