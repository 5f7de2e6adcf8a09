import MeetingCalendar.Proofs.Occurrence.Paging

/-!
# The dates of an expansion

An expansion lists the first dates of its schedule in its window, for every window, also an empty
one, and every number of dates.  Asking a recurrence about a single date agrees with this list.
-/

namespace MeetingCalendar

namespace Expansion

theorem consistent_cursor (e : Expansion) : e.cursor.Consistent :=
  ⟨List.Pairwise.nil, Nat.zero_le _, by simp [cursor]⟩

/-- A new cursor holds the dates of the schedule in the window. -/
theorem holds_cursor_iff {e : Expansion} (hmax : 0 < e.max) {d : Date} :
    e.cursor.Holds d ↔ d ∈ e.window ∧ e.schedule.Occurs d := by
  simp only [Cursor.Holds, cursor, List.not_mem_nil, false_or, Option.some.injEq, exists_eq_left',
    Bool.or_eq_false_iff]
  constructor
  · exact fun h ↦ h.2
  · rintro ⟨hwindow, hoccurs⟩
    obtain ⟨hstart, hstop⟩ := Window.mem_iff.mp hwindow
    refine ⟨⟨?_, ?_⟩, hwindow, hoccurs⟩
    · unfold Window.isEmpty
      rw [decide_eq_false_iff_not]
      exact Date.not_lt.mpr (Date.le_trans hstart hstop)
    · exact beq_false_of_ne (Nat.ne_of_gt hmax)

/-- An expansion gives the first dates of its schedule in its window. -/
theorem firstDates_toList (e : Expansion) :
    FirstDates e.max (fun d ↦ d ∈ e.window ∧ e.schedule.Occurs d) e.toList := by
  have hcursor := Cursor.firstDates_toList e.consistent_cursor
  change FirstDates e.max e.cursor.Holds e.toList at hcursor
  rcases Nat.eq_zero_or_pos e.max with hzero | hpos
  · have hnil : e.toList = [] := List.eq_nil_of_length_eq_zero (by
      have hlength := hcursor.length_le
      omega)
    rw [hzero, hnil]
    exact FirstDates.zero
  · exact hcursor.congr fun d ↦ holds_cursor_iff hpos

/-- The first date that an expansion gives is the earliest one. -/
theorem next?_cursor_eq_some_iff {e : Expansion} (hmax : 0 < e.max) {d : Date} :
    e.cursor.next?.map Prod.fst = some d ↔
      (d ∈ e.window ∧ e.schedule.Occurs d) ∧
        ∀ d', d' ∈ e.window ∧ e.schedule.Occurs d' → d ≤ d' := by
  rw [← Cursor.head?_toList]
  exact e.firstDates_toList.head?_eq_some_iff hmax

end Expansion

/-- A recurrence falls on a date exactly when its schedule does. -/
theorem Recurrence.isOccurrence_iff {r : Recurrence} {seed d : Date} :
    r.isOccurrence seed d = true ↔ (⟨r, seed⟩ : Schedule).Occurs d := by
  have hday : ∀ d', d' ∈ Window.day d ↔ d' = d := by
    intro d'
    rw [Window.mem_iff]
    exact ⟨fun h ↦ Date.le_antisymm h.2 h.1, fun h ↦ h ▸ ⟨Date.le_refl _, Date.le_refl _⟩⟩
  have hmax : 0 < defaultMaxOccurrences := by decide
  have hfirst := Expansion.next?_cursor_eq_some_iff
    (e := { schedule := ⟨r, seed⟩, window := .day d }) (d := d) hmax
  have hfound : r.isOccurrence seed d = true ↔
      (Expansion.cursor { schedule := ⟨r, seed⟩, window := .day d }).next?.map Prod.fst =
        some d := by
    unfold isOccurrence
    split
    · rename_i hnext
      simp [hnext]
    · rename_i hnext
      simp [hnext]
  rw [hfound, hfirst]
  constructor
  · exact fun h ↦ h.1.2
  · intro h
    refine ⟨⟨(hday d).mpr rfl, h⟩, ?_⟩
    rintro d' ⟨hwindow, -⟩
    rw [(hday d').mp hwindow]
    exact Date.le_refl _

end MeetingCalendar
