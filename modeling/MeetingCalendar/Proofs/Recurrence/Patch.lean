import MeetingCalendar.Event.Update

/-!
# Recurrences made from patches

The parts in a usable patch fit every recurrence: whatever the current recurrence of an event is, a
patch that names a positive interval in range, some weekdays and no fifth weekday, as far as it names
any of them, makes a recurrence of it.  A patch that names all parts of a recurrence makes that one
of every other, except that the day of the month of the first date has no name.
-/

namespace MeetingCalendar

namespace WeekdaySet

theorem isEmpty_eq_false_of_mem {s : WeekdaySet} {w : Weekday} (h : w ∈ s) : s.isEmpty = false := by
  have hmem : w ∈ s.toList := mem_toList.mpr h
  unfold isEmpty
  rw [List.isEmpty_eq_false_iff]
  exact List.ne_nil_of_mem hmem

end WeekdaySet

namespace Recurrence

theorem make_eq_ok_iff {interval : Nat} {pattern : Repeat} {r : Recurrence} :
    make interval pattern = .ok r ↔ r.interval = interval ∧ r.pattern = pattern := by
  constructor
  · intro h
    unfold make at h
    split at h
    · cases h
    · split at h
      · cases h
      · split at h
        · cases h
          exact ⟨rfl, rfl⟩
        · cases h
  · rintro ⟨rfl, rfl⟩
    exact make_parts r

theorem exists_make {interval : Nat} {pattern : Repeat} (hpos : 0 < interval)
    (hle : interval ≤ maxInterval) (hdays : pattern.hasDays = true) :
    ∃ r, make interval pattern = .ok r :=
  ⟨⟨interval, pattern, hpos, hle, hdays⟩, make_parts ⟨interval, pattern, hpos, hle, hdays⟩⟩

theorem weekdays?_eq_some_iff {r : Recurrence} {days : WeekdaySet} :
    r.weekdays? = some days ↔ r.pattern = .weekly days := by
  unfold weekdays?
  cases r.pattern <;> simp

theorem monthlyDay?_eq_some_iff {r : Recurrence} {day : MonthlyDay} :
    r.monthlyDay? = some day ↔ r.pattern = .monthly day := by
  unfold monthlyDay?
  cases r.pattern <;> simp

end Recurrence

namespace RecurrencePatch

/-- A patch whose parts a recurrence can have. -/
structure Usable (patch : RecurrencePatch) : Prop where
  interval : ∀ n, patch.interval = some n → 0 < n ∧ n ≤ Recurrence.maxInterval
  weekdays : ∀ days, patch.weekdays = some days → days.isEmpty = false
  monthlyDay : ∀ weekday, patch.monthlyDay ≠ some (.nth .fifth weekday)

variable {patch : RecurrencePatch}

theorem Usable.hasDays_pattern (h : patch.Usable) (current : Option Recurrence) (start : Date) :
    (patch.pattern current start).hasDays = true := by
  unfold pattern
  generalize (patch.frequency.or (current.map Recurrence.frequency)).getD .weekly = frequency
  cases frequency with
  | weekly =>
    have hdays : ((patch.weekdays.or (current.bind Recurrence.weekdays?)).getD
        (.singleton start.weekday)).isEmpty = false := by
      cases hweekdays : patch.weekdays with
      | some days => exact h.weekdays days hweekdays
      | none =>
        cases hcurrent : current.bind Recurrence.weekdays? with
        | some days =>
          obtain ⟨r, -, hr⟩ := Option.bind_eq_some_iff.mp hcurrent
          have hvalid := r.hasDays
          rw [Recurrence.weekdays?_eq_some_iff.mp hr] at hvalid
          simpa [Repeat.hasDays] using hvalid
        | none =>
          apply WeekdaySet.isEmpty_eq_false_of_mem (w := start.weekday)
          exact WeekdaySet.mem_ofList.mpr List.mem_cons_self
    simp only [Repeat.hasDays, hdays, Bool.not_false]
  | daily => rfl
  | monthly => rfl
  | yearly => rfl

theorem Usable.interval_bounds (h : patch.Usable) (current : Option Recurrence) :
    0 < (patch.interval.or (current.map Recurrence.interval)).getD 1 ∧
      (patch.interval.or (current.map Recurrence.interval)).getD 1 ≤ Recurrence.maxInterval := by
  cases hinterval : patch.interval with
  | some n => exact h.interval n hinterval
  | none =>
    cases current with
    | some r => exact ⟨r.interval_pos, r.interval_le⟩
    | none => decide

/-- A usable patch makes a recurrence of whatever recurrence an event has. -/
theorem Usable.exists_make (h : patch.Usable) (current : Option Recurrence) (start : Date) :
    ∃ r, Recurrence.make ((patch.interval.or (current.map Recurrence.interval)).getD 1)
      (patch.pattern current start) = .ok r := by
  obtain ⟨hpos, hle⟩ := h.interval_bounds current
  exact Recurrence.exists_make hpos hle (h.hasDays_pattern current start)

end RecurrencePatch

/-! ## Patches that name all parts -/

/-- The pattern is that of a weekday of the month. -/
def Repeat.NamesWeekdayOfMonth (pattern : Repeat) : Prop :=
  ∃ day, pattern = .monthly day ∧ day ≠ .sameDay

/-- The patch that names the parts of a recurrence.  There is no name for the day of the month of
the first date. -/
def Recurrence.toPatch (s : Recurrence) (interval : Option Nat) : RecurrencePatch where
  frequency := some s.frequency
  interval := interval
  weekdays := s.weekdays?
  monthlyDay := s.monthlyDay?.filter (· != .sameDay)

namespace Recurrence

variable {s : Recurrence} {interval : Option Nat} {current : Option Recurrence} {start : Date}

theorem pattern_toPatch_of_ne (h : s.pattern ≠ .monthly .sameDay) :
    (s.toPatch interval).pattern current start = s.pattern := by
  obtain ⟨n, pattern, hpos, hle, hvalid⟩ := s
  cases pattern with
  | daily => rfl
  | weekly days => rfl
  | yearly => rfl
  | monthly day =>
    cases day with
    | sameDay => exact absurd rfl h
    | nth ordinal weekday => rfl
    | last weekday => rfl

/-- A patch that names no day of the month falls back on the one from before. -/
theorem pattern_toPatch_of_eq (h : s.pattern = .monthly .sameDay) :
    (s.toPatch interval).pattern current start =
      .monthly ((current.bind monthlyDay?).getD .sameDay) := by
  obtain ⟨n, pattern, hpos, hle, hvalid⟩ := s
  obtain rfl : pattern = .monthly .sameDay := h
  rfl

/-- The parts make the pattern again, except that a day of the month of the first date does not take
the place of a weekday of the month. -/
theorem pattern_toPatch (h : s.pattern = .monthly .sameDay →
      ∀ old, current = some old → ¬old.pattern.NamesWeekdayOfMonth) :
    (s.toPatch interval).pattern current start = s.pattern := by
  by_cases hsame : s.pattern = .monthly .sameDay
  · rw [pattern_toPatch_of_eq hsame, hsame]
    cases hday : current.bind monthlyDay? with
    | none => rfl
    | some day =>
      obtain ⟨old, hold, hmonthly⟩ := Option.bind_eq_some_iff.mp hday
      have hday' : day = .sameDay := Decidable.byContradiction fun hne ↦
        h hsame old hold ⟨day, monthlyDay?_eq_some_iff.mp hmonthly, hne⟩
      rw [hday']
      rfl
  · exact pattern_toPatch_of_ne hsame

theorem pattern_toPatch_of_namesWeekdayOfMonth {old : Recurrence}
    (h : s.pattern = .monthly .sameDay) (hold : old.pattern.NamesWeekdayOfMonth) :
    (s.toPatch interval).pattern (some old) start = old.pattern := by
  obtain ⟨day, hpattern, -⟩ := hold
  have hmonthly : (some old).bind monthlyDay? = some day := monthlyDay?_eq_some_iff.mpr hpattern
  rw [pattern_toPatch_of_eq h, hmonthly, hpattern]
  rfl

end Recurrence

end MeetingCalendar
