import MeetingCalendar.Weekday

/-!
# Coded choices

Closed choices that requests name by a number.  Requests may use the codes from `minCode` to
`maxCode`; a choice can have codes outside.  Weekdays are numbered from 1 for Monday.
-/

namespace MeetingCalendar

/-- A closed choice with a number for each alternative. -/
class Coded (α : Type) where
  /-- The least code that a request may use. -/
  minCode : Int
  /-- The greatest code that a request may use. -/
  maxCode : Int
  /-- The alternative with a code. -/
  ofCode? : Int → Option α
  /-- The code of an alternative. -/
  code : α → Int

namespace Coded

/-- Whether a request may use a code of the choice. -/
def accepts (α : Type) [Coded α] (n : Int) : Bool :=
  minCode α ≤ n && n ≤ maxCode α

/-- The alternative with a code that a request may use. -/
def accepted? (α : Type) [Coded α] (n : Int) : Option α :=
  if accepts α n then ofCode? n else none

end Coded

instance : Coded Weekday where
  minCode := 1
  maxCode := 7
  ofCode? n := if 1 ≤ n ∧ n ≤ 7 then some (.ofIndex (n - 1).toNat) else none
  code w := w.index + 1

end MeetingCalendar
