import MeetingCalendar.Event.Request

/-!
# Handling request texts

What is done with the text of a request under a policy: it is validated, read as an event, or
applied to an event as an update.  In each case the text must first be a request with supported
fields only.
-/

namespace MeetingCalendar.RequestPolicy

/-- The request in a text, with supported fields only. -/
def request (policy : RequestPolicy) (body : String) : Except CalendarError Request :=
  Request.ofSupportedBody policy body

def validateBody (policy : RequestPolicy) (mode : Mode) (body : String) :
    Except CalendarError Unit := do
  (← policy.request body).validate policy mode

/-- The event that a request describes, without checking constraints. -/
def readEvent (policy : RequestPolicy) (body : String) : Except CalendarError Event := do
  (← policy.request body).toEvent

def createEvent (policy : RequestPolicy) (body : String) : Except CalendarError Event := do
  let request ← policy.request body
  request.validate policy .create
  request.toEvent

/-- The event after a valid request to update it, and what the update changed. -/
def updateEvent (policy : RequestPolicy) (e : Event) (body : String) :
    Except CalendarError (Event × Changes) := do
  let request ← policy.request body
  request.validate policy .update
  e.update (← request.toUpdate)

end MeetingCalendar.RequestPolicy
