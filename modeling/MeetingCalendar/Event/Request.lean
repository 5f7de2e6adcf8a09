import MeetingCalendar.Event.Update
import MeetingCalendar.Validation

/-!
# Events from requests

A request to create an event gives the event, and a request to update one gives the update.  Reading
is structural: it does not apply limits of length, but it refuses mandatory fields that cannot be
read and codes that stand for nothing.
-/

namespace MeetingCalendar

namespace Request

/-- A value that must be there, or the violation that it is not. -/
def required {α : Type} (name : String) : Reading α → Except Violation α
  | .value v _ => .ok v
  | .invalid raw expected => .error ⟨name, raw, .ofExpected expected⟩
  | .absent => .error ⟨name, .null, .cannotBeBlank⟩
  | .null => .error ⟨name, .null, .cannotBeBlank⟩

def choice (α : Type) [Coded α] (name : String) (code : Int) : Except Violation α :=
  match Coded.accepted? α code with
  | some v => .ok v
  | none => .error ⟨name, .integer code, .notWithinRange (Coded.minCode α) (Coded.maxCode α)⟩

def repeatChoice (α : Type) [Coded α] (name : String) (code : Int) : Except RecurrenceError α :=
  match Coded.accepted? α code with
  | some v => .ok v
  | none => .error (.codeOutOfRange name (Coded.minCode α) (Coded.maxCode α) code)

def monthlyDay? (r : Request) : Except RecurrenceError (Option MonthlyDay) :=
  let nth := (r.integer Parameter.repeatsOnNthDayOfMonth).value?
  let last := (r.integer Parameter.repeatsOnLastWeekdayOfMonth).value?
  match nth, last with
  | some _, some _ =>
    .error (.mutuallyExclusive Parameter.repeatsOnNthDayOfMonth
      Parameter.repeatsOnLastWeekdayOfMonth)
  | some place, none => do
    let ordinal ← repeatChoice Ordinal Parameter.repeatsOnNthDayOfMonth place
    match (r.integer Parameter.repeatsOnDay).value? with
    | none => throw (.requires Parameter.repeatsOnNthDayOfMonth Parameter.repeatsOnDay)
    | some day => return some (.nth ordinal (← repeatChoice Weekday Parameter.repeatsOnDay day))
  | none, some day => do
    return some (.last (← repeatChoice Weekday Parameter.repeatsOnLastWeekdayOfMonth day))
  | none, none => .ok none

/-- The interval that a request names: a number of 32 bits. -/
def interval? (r : Request) : Except RecurrenceError (Option Nat) :=
  match (r.integer Parameter.interval).value? with
  | none => .ok none
  | some n =>
    if 0 ≤ n ∧ n ≤ Text.maxNat32 then .ok (some n.toNat) else .error (.intervalOutOfRange n)

def weekdays? (r : Request) : Except RecurrenceError (Option WeekdaySet) :=
  match (r.integers Parameter.repeatsOnDay).value? with
  | none => .ok none
  | some days => do
    let days ← days.mapM (repeatChoice Weekday Parameter.repeatsOnDay)
    return some (.ofList days)

def frequency? (r : Request) : Except RecurrenceError (Option Frequency) :=
  match (r.integer Parameter.frequency).value? with
  | none => .ok none
  | some n => (repeatChoice Frequency Parameter.frequency n).map some

/-- The parts of a recurrence that a request supplies; weekdays and the day of the month are read
only for the frequency that they belong to. -/
def recurrencePatch (r : Request) : Except RecurrenceError RecurrencePatch := do
  let frequency ← r.frequency?
  let interval ← r.interval?
  let weekdays ← if frequency = some .weekly then r.weekdays? else .ok none
  let monthlyDay ← if frequency = some .monthly then r.monthlyDay? else .ok none
  return { frequency, interval, weekdays, monthlyDay }

def recurrence (r : Request) (start : Date) : Except RecurrenceError Recurrence := do
  let patch ← r.recurrencePatch
  match patch.frequency with
  | none => throw .missingFrequency
  | some _ => Recurrence.make (patch.interval.getD 1) (patch.pattern none start)

def recurrence? (r : Request) (start : Date) : Except CalendarError (Option Recurrence) :=
  if r.isSet Parameter.repeating then
    ((r.recurrence start).map some).mapError .invalidRecurrence
  else .ok none

def entityType (r : Request) : Except Violation EntityType :=
  required Parameter.typeId (r.integer Parameter.typeId) >>= choice EntityType Parameter.typeId

def choice? (α : Type) [Coded α] (r : Request) (name : String) : Except Violation (Option α) :=
  match (r.integer name).value? with
  | none => .ok none
  | some code => (choice α name code).map some

def failure? {α : Type} : Except Violation α → List Violation
  | .ok _ => []
  | .error v => [v]

def toEvent (r : Request) : Except CalendarError Event :=
  let title := required Parameter.title (r.text Parameter.title)
  let startDate := required Parameter.startDate (r.date Parameter.startDate)
  let remindBy := r.choice? RemindBy Parameter.remindById
  match title, startDate, r.entityType, remindBy with
  | .ok title, .ok startDate, .ok entityType, .ok remindBy => do
    let recurrence ← r.recurrence? startDate
    return {
      title, startDate, entityType, remindBy, recurrence
      repeating := recurrence.isSome
      description := (r.text Parameter.description).value?
      location := (r.text Parameter.location).value?
      endDate := (r.date Parameter.endDate).value?
      duration := (r.integer Parameter.duration).value?
      firstReminderOffset := (r.integer Parameter.firstReminderOffset).value?
      secondReminderOffset := (r.integer Parameter.secondReminderOffset).value?
      meetingTime := (r.time Parameter.meetingTime).value? }
  | title, startDate, entityType, remindBy =>
    .error (.rejected (.calendar
      (failure? title ++ failure? startDate ++ failure? entityType ++ failure? remindBy)))

def repeatUpdate? (r : Request) : Except RecurrenceError (Option RepeatUpdate) :=
  match (r.boolean Parameter.repeating).value? with
  | some true => r.recurrencePatch.map fun patch ↦ some (.on patch)
  | some false => .ok (some .off)
  | none => .ok none

/-- The move of a meeting that a request asks for; it needs both dates. -/
def reschedule? (r : Request) : Option Reschedule :=
  if r.isSet Parameter.rescheduleBasedOnMeetingDates then do
    let present ← (r.date Parameter.presentMeetingDate).value?
    let new ← (r.date Parameter.newMeetingDate).value?
    some ⟨present, new⟩
  else none

def toUpdate (r : Request) : Except CalendarError EventUpdate :=
  let entityType := r.choice? EntityType Parameter.typeId
  let remindBy := r.choice? RemindBy Parameter.remindById
  match entityType, remindBy with
  | .ok entityType, .ok remindBy => do
    let repeating ← r.repeatUpdate?.mapError .invalidRecurrence
    return {
      entityType, repeating
      title := (r.text Parameter.title).value?
      description := (r.text Parameter.description).patch?
      location := (r.text Parameter.location).patch?
      startDate := (r.date Parameter.startDate).value?
      endDate := (r.date Parameter.endDate).patch?
      duration := (r.integer Parameter.duration).patch?
      remindBy := (r.integer Parameter.remindById).patch?.map fun _ ↦ remindBy
      firstReminderOffset := (r.integer Parameter.firstReminderOffset).patch?
      secondReminderOffset := (r.integer Parameter.secondReminderOffset).patch?
      meetingTime := (r.time Parameter.meetingTime).patch?
      reschedule := r.reschedule? }
  | entityType, remindBy =>
    .error (.rejected (.calendar (failure? entityType ++ failure? remindBy)))

end Request

end MeetingCalendar
