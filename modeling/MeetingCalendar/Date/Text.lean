import MeetingCalendar.Date.Basic
import MeetingCalendar.Text.Integer

/-!
# Dates as text

The written form `YYYY-MM-DD`.  A year from 0 to 9999 has four digits and no sign; any other year
has a sign and at least four digits, as in `+12024-01-05` and `-0044-03-15`.
-/

namespace MeetingCalendar

/-- A year with at least four digits, signed unless it is between 0 and 9999. -/
def yearChars (year : Int) : List Char :=
  let digits := Text.paddedDigits 4 year.natAbs
  if year < 0 then '-' :: digits
  else if 9999 < year then '+' :: digits
  else digits

namespace Date

def toChars (d : Date) : List Char :=
  yearChars d.year ++ '-' :: Text.paddedDigits 2 d.month ++ '-' :: Text.paddedDigits 2 d.day

def toText (d : Date) : String :=
  String.ofList d.toChars

instance : ToString Date := ⟨toText⟩

end Date

end MeetingCalendar
