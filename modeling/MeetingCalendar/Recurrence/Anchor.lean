import MeetingCalendar.Recurrence.Basic

/-!
# Anchoring a recurrence on a date

A schedule that moves to a new first date takes its place in the week or month from that date.
Weekly recurrences move to the date's weekday, monthly ones on a weekday to the date's place in its
month; a fifth weekday becomes the last one, because not every month has a fifth.
-/

namespace MeetingCalendar

/-- The monthly day of the same kind that fits a date. -/
def MonthlyDay.anchoredOn (day : MonthlyDay) (d : Date) : MonthlyDay :=
  match day with
  | sameDay => sameDay
  | nth _ _ =>
    match Ordinal.ofDay? d.day with
    | some .fifth => last d.weekday
    | some ordinal => nth ordinal d.weekday
    | none => last d.weekday
  | last _ => last d.weekday

def Repeat.anchoredOn (pattern : Repeat) (d : Date) : Repeat :=
  match pattern with
  | daily => daily
  | weekly _ => weekly (.singleton d.weekday)
  | monthly day => monthly (day.anchoredOn d)
  | yearly => yearly

/-- A pattern keeps its kind, and a weekly one gets a weekday. -/
theorem Repeat.hasDays_anchoredOn (pattern : Repeat) (d : Date) :
    (pattern.anchoredOn d).hasDays = true := by
  cases pattern with
  | weekly days => cases h : d.weekday <;> simp only [anchoredOn, h] <;> rfl
  | daily => rfl
  | monthly day => rfl
  | yearly => rfl

/-- The recurrence with the same interval that fits a date. -/
def Recurrence.anchoredOn (r : Recurrence) (d : Date) : Recurrence :=
  ⟨r.interval, r.pattern.anchoredOn d, r.interval_pos, r.interval_le,
    r.pattern.hasDays_anchoredOn d⟩

end MeetingCalendar
