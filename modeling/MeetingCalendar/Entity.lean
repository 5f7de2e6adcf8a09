import MeetingCalendar.Coded

/-!
# Entities and reminders

What an event is attached to, and how reminders of it are sent.
-/

namespace MeetingCalendar

/-- What an event is attached to. -/
inductive EntityType where
  | clients
  | groups
  | loans
  | centers
  | savings
  | loanRecalculationRestDetail
  | loanRecalculationCompoundingDetail
  deriving DecidableEq, Repr, Inhabited

namespace EntityType

def all : List EntityType :=
  [clients, groups, loans, centers, savings, loanRecalculationRestDetail,
    loanRecalculationCompoundingDetail]

def key : EntityType → String
  | clients => "clients"
  | groups => "groups"
  | loans => "loans"
  | centers => "centers"
  | savings => "savings"
  | loanRecalculationRestDetail => "loan_recalculation_rest_detail"
  | loanRecalculationCompoundingDetail => "loan_recalculation_compounding_detail"

def ofKey? (key : String) : Option EntityType :=
  all.find? fun e ↦ e.key == key

instance : Coded EntityType where
  minCode := 1
  maxCode := 7
  ofCode?
    | 1 => some clients
    | 2 => some groups
    | 3 => some loans
    | 4 => some centers
    | 5 => some savings
    | 6 => some loanRecalculationRestDetail
    | 7 => some loanRecalculationCompoundingDetail
    | _ => none
  code
    | clients => 1
    | groups => 2
    | loans => 3
    | centers => 4
    | savings => 5
    | loanRecalculationRestDetail => 6
    | loanRecalculationCompoundingDetail => 7

end EntityType

/-- How a reminder is sent. -/
inductive RemindBy where
  | email
  | sms
  deriving DecidableEq, Repr, Inhabited

namespace RemindBy

def all : List RemindBy := [email, sms]

def key : RemindBy → String
  | email => "email"
  | sms => "sms"

def ofKey? (key : String) : Option RemindBy :=
  all.find? fun r ↦ r.key == key

instance : Coded RemindBy where
  minCode := 1
  maxCode := 2
  ofCode?
    | 1 => some email
    | 2 => some sms
    | _ => none
  code
    | email => 1
    | sms => 2

end RemindBy

end MeetingCalendar
