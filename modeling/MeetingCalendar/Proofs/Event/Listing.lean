import MeetingCalendar.Proofs.Date.FirstDates
import MeetingCalendar.Proofs.Event.Reschedule

/-!
# Listing the meetings of an event

An event lists its meetings in a window by one expansion of its recurrence, and tells whether it
meets on a single day by another.  The two agree: the list is what asking about every day of the
window would give, cut off at the number of dates that were asked for.
-/

namespace MeetingCalendar

/-! ## The days of a window -/

namespace Window

def dates (w : Window) : List Date :=
  (List.range (w.stop.dayNumber + 1 - w.start.dayNumber).toNat).filterMap
    fun (k : Nat) ↦ Date.ofDayNumber? (w.start.dayNumber + k)

theorem mem_dates {w : Window} {d : Date} : d ∈ w.dates ↔ d ∈ w := by
  simp only [dates, List.mem_filterMap, List.mem_range, Date.ofDayNumber?_eq_some_iff, mem_iff,
    Date.le_iff]
  constructor
  · intro ⟨k, hk, hd⟩
    omega
  · intro ⟨hstart, hstop⟩
    exact ⟨(d.dayNumber - w.start.dayNumber).toNat, by omega, by omega⟩

theorem dates_ascending (w : Window) : w.dates.Pairwise (· < ·) := by
  refine List.pairwise_lt_range.filterMap _ ?_
  intro j k hjk a ha b hb
  have hanumber := Date.dayNumber_of_ofDayNumber? ha
  have hbnumber := Date.dayNumber_of_ofDayNumber? hb
  rw [Date.lt_iff]
  omega

end Window

/-! ## Meetings -/

namespace Event

variable {e : Event} {w : Window} {d : Date}

theorem mem_activeWindow :
    d ∈ e.activeWindow w ↔ d ∈ w ∧ ∀ stop, e.endDate = some stop → d ≤ stop := by
  unfold activeWindow
  cases e.endDate with
  | none => simp
  | some stop => simpa using Window.mem_clippedTo

/-- The meetings in a window are the dates of its active part on which the event falls. -/
theorem isMeetingDate_of_mem_iff :
    d ∈ e.activeWindow w ∧ e.Falls d ↔ d ∈ w ∧ e.isMeetingDate d = true := by
  rw [mem_activeWindow, isMeetingDate_iff, and_assoc]

/-- A list of the one date `d`, if it is in the window and there is room for it. -/
theorem firstDates_one (w : Window) (d : Date) (n : Nat) :
    FirstDates n (fun d' ↦ d' ∈ w ∧ d' = d) (if w.contains d && 0 < n then [d] else []) := by
  by_cases hd : d ∈ w
  · have hcontains : w.contains d = true := hd
    rw [hcontains, Bool.true_and]
    cases n with
    | zero => exact FirstDates.zero
    | succ n =>
      have hnone : FirstDates n (fun _ ↦ False) [] := FirstDates.nil fun _ ↦ id
      apply (hnone.cons (d := d) fun _ hfalse ↦ hfalse.elim).congr
      intro d'
      constructor
      · intro h
        have heq : d' = d := h.resolve_right id
        exact ⟨heq ▸ hd, heq⟩
      · exact fun h ↦ .inl h.2
  · have hcontains : w.contains d = false := Bool.not_eq_true _ ▸ hd
    rw [hcontains]
    apply FirstDates.nil
    intro d' h
    exact hd (h.2 ▸ h.1)

/-- An event lists the first of its meetings in a window. -/
theorem firstDates_meetingDates (e : Event) (w : Window) (n : Nat) :
    FirstDates n (fun d ↦ d ∈ w ∧ e.isMeetingDate d = true) (e.meetingDates w n) := by
  apply FirstDates.congr _ fun d ↦ isMeetingDate_of_mem_iff
  unfold meetingDates Falls
  cases e.recurrence with
  | some r => exact Expansion.firstDates_toList ⟨⟨r, e.startDate⟩, e.activeWindow w, n⟩
  | none => exact firstDates_one (e.activeWindow w) e.startDate n

/-- The meetings that an event lists in a window are, in ascending order, the first of the days of
the window on which it meets. -/
theorem meetingDates_eq_take_filter (e : Event) (w : Window) (n : Nat) :
    (e.meetingDates w n).Pairwise (· < ·) ∧
      e.meetingDates w n = (w.dates.filter e.isMeetingDate).take n := by
  have hlisted := e.firstDates_meetingDates w n
  have hascending : (w.dates.filter e.isMeetingDate).Pairwise (· < ·) :=
    w.dates_ascending.filter e.isMeetingDate
  have hasked : FirstDates n (fun d ↦ d ∈ w ∧ e.isMeetingDate d = true)
      ((w.dates.filter e.isMeetingDate).take n) := by
    apply (FirstDates.take hascending n).congr
    intro d
    rw [List.mem_filter, Window.mem_dates]
  exact ⟨hlisted.ascending, hlisted.unique hasked⟩

end Event

end MeetingCalendar
