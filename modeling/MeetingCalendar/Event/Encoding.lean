import MeetingCalendar.Event.Basic
import MeetingCalendar.Json.Basic
import MeetingCalendar.Request.Parameter

/-!
# Events as JSON

The values of an event's fields as JSON.  Choices are written by their names, a recurrence by the
text of its rule, and fields without a value are left out of the event.
-/

namespace MeetingCalendar

/-- A value of a field as JSON; no value is `null`. -/
class Encode (α : Type) where
  encode : α → Json

export Encode (encode)

instance : Encode String := ⟨.text⟩
instance : Encode Int := ⟨.integer⟩
instance : Encode Bool := ⟨.bool⟩
instance : Encode Date := ⟨fun d ↦ .text d.toText⟩
instance : Encode TimeOfDay := ⟨fun t ↦ .text t.toText⟩
instance : Encode EntityType := ⟨fun e ↦ .text e.key⟩
instance : Encode RemindBy := ⟨fun r ↦ .text r.key⟩
instance : Encode Recurrence := ⟨fun r ↦ .text r.toText⟩

instance {α : Type} [Encode α] : Encode (Option α) where
  encode
    | some v => encode v
    | none => .null

inductive RecurrenceDecodeError where
  | notText
  | rule (cause : RuleError)
  deriving DecidableEq, Repr

/-- The recurrence that a JSON value names by the text of its rule. -/
def Recurrence.ofJson : Json → Except RecurrenceDecodeError Recurrence
  | .text s => (parse s).mapError .rule
  | _ => .error .notText

/-- A field that is left out when it has no value. -/
def encodeField? {α : Type} [Encode α] (name : String) (value : Option α) :
    List (String × Json) :=
  match value with
  | some v => [(name, encode v)]
  | none => []

def Event.toJson (e : Event) : Json :=
  .ofFields <|
    [("title", encode e.title), ("startDate", encode e.startDate),
      ("entityType", encode e.entityType), ("repeating", encode e.repeating)] ++
    encodeField? "description" e.description ++
    encodeField? "location" e.location ++
    encodeField? "endDate" e.endDate ++
    encodeField? "duration" e.duration ++
    encodeField? "recurrence" e.recurrence ++
    encodeField? "remindBy" e.remindBy ++
    encodeField? "firstReminderOffset" e.firstReminderOffset ++
    encodeField? "secondReminderOffset" e.secondReminderOffset ++
    encodeField? "meetingTime" e.meetingTime

end MeetingCalendar
