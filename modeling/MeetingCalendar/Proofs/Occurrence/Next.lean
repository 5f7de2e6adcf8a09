import MeetingCalendar.Proofs.Occurrence.Expansion

/-!
# The date that comes next

The next date of a recurrence is the first one of an expansion that is open to the end of the
calendar, while whether the recurrence falls on a date is told by an expansion of that day alone.
Both questions are about the same dates: the next date is the first of those behind the given day on
which the recurrence falls, and there is none only if the recurrence falls on none of them.
-/

namespace MeetingCalendar

theorem Window.mem_starting_iff {start d : Date} : d ∈ Window.starting start ↔ start ≤ d := by
  rw [mem_iff]
  exact and_iff_left (Date.le_last d)

theorem Date.le_iff_lt_of_next? {d start e : Date} (h : d.next? = some start) :
    start ≤ e ↔ d < e := by
  have hnumber := next?_eq_some_iff.mp h
  rw [le_iff, lt_iff]
  omega

namespace Recurrence

variable {r : Recurrence} {seed d : Date}

/-- The next date is the head of the dates that come behind a date. -/
theorem exists_firstDates_after (r : Recurrence) (seed d : Date) :
    ∃ dates, r.nextOccurrenceAfter seed d = dates.head? ∧
      FirstDates defaultMaxOccurrences (fun n ↦ d < n ∧ r.isOccurrence seed n = true) dates := by
  cases hnext : d.next? with
  | none =>
    -- Behind the last date of the calendar there is no other.
    refine ⟨[], by rw [nextOccurrenceAfter, hnext]; rfl, FirstDates.nil ?_⟩
    rintro n ⟨hlt, -⟩
    exact absurd hlt (Date.not_lt.mpr (Date.le_of_next?_eq_none hnext n))
  | some start =>
    let e : Expansion := { schedule := ⟨r, seed⟩, window := .starting start }
    refine ⟨e.toList, ?_, e.firstDates_toList.congr fun n ↦ ?_⟩
    · have hhead : e.toList.head? = e.cursor.next?.map Prod.fst := Cursor.head?_toList e.cursor
      rw [hhead, nextOccurrenceAfter, hnext]
      cases hcursor : e.cursor.next? <;> simp [e, hcursor]
    · rw [Window.mem_starting_iff, Date.le_iff_lt_of_next? hnext, isOccurrence_iff]

/-- The next date behind a date is the first one on which the recurrence falls, and there is none
only if the recurrence falls on no date behind it. -/
theorem nextOccurrenceAfter_iff_isOccurrence (r : Recurrence) (seed d : Date) :
    (∀ n, r.nextOccurrenceAfter seed d = some n ↔
      d < n ∧ r.isOccurrence seed n = true ∧
        ∀ m, d < m → m < n → r.isOccurrence seed m = false) ∧
    (r.nextOccurrenceAfter seed d = none ↔ ∀ n, d < n → r.isOccurrence seed n = false) := by
  obtain ⟨dates, hhead, hdates⟩ := exists_firstDates_after r seed d
  have hmax : 0 < defaultMaxOccurrences := by decide
  rw [hhead, hdates.head?_eq_none_iff hmax]
  refine ⟨fun n ↦ ?_, by simp⟩
  rw [hdates.head?_eq_some_iff hmax, and_assoc]
  refine and_congr_right fun _ ↦ and_congr_right fun _ ↦ forall_congr' fun m ↦ ?_
  rw [← Date.not_lt, ← Bool.not_eq_true]
  exact ⟨fun h hafter hbefore hfalls ↦ h ⟨hafter, hfalls⟩ hbefore,
    fun h hm hbefore ↦ h hm.1 hbefore hm.2⟩

end Recurrence

end MeetingCalendar
