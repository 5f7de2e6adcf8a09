import MeetingCalendar.Date.Text
import MeetingCalendar.Entity
import MeetingCalendar.Occurrence.Expansion
import MeetingCalendar.Recurrence.Rule
import MeetingCalendar.TimeOfDay

/-!
# Events

An event is an entry in the calendar of a client, group, loan, center or savings account.  It may
repeat; it meets on the dates of its recurrence from its start date on, or on the start date alone,
and never after its end date.
-/

namespace MeetingCalendar

/-- An entry in a calendar. -/
structure Event where
  title : String
  description : Option String := none
  location : Option String := none
  startDate : Date
  endDate : Option Date := none
  duration : Option Int := none
  entityType : EntityType
  repeating : Bool := false
  recurrence : Option Recurrence := none
  remindBy : Option RemindBy := none
  firstReminderOffset : Option Int := none
  secondReminderOffset : Option Int := none
  meetingTime : Option TimeOfDay := none
  deriving DecidableEq

namespace Event

def withRecurrence (e : Event) (r : Recurrence) : Event :=
  { e with repeating := true, recurrence := some r }

/-- The part of a window in which the event can meet. -/
def activeWindow (e : Event) (window : Window) : Window :=
  match e.endDate with
  | some stop => window.clippedTo stop
  | none => window

/-- The dates in a window on which the event meets, `max` at most. -/
def meetingDates (e : Event) (window : Window) (max : Nat) : List Date :=
  let window := e.activeWindow window
  match e.recurrence with
  | some r => Expansion.toList ⟨⟨r, e.startDate⟩, window, max⟩
  | none => if window.contains e.startDate && 0 < max then [e.startDate] else []

def isMeetingDate (e : Event) (d : Date) : Bool :=
  if e.endDate.any fun stop ↦ stop < d then false
  else
    match e.recurrence with
    | some r => r.isOccurrence e.startDate d
    | none => d = e.startDate

end Event

end MeetingCalendar
