import MeetingCalendar.Proofs.Event.Changes
import MeetingCalendar.Proofs.Recurrence.Patch

/-!
# Updates applied again

An update without a move can be applied to its own result, and nothing changes any more.  The fields
that it supplies are there already.  The recurrence is made of the parts in the update and of those
of the current recurrence, and a recurrence that was made in this way has the parts that it was made
of, whatever the recurrence before it was.
-/

namespace MeetingCalendar

namespace RecurrencePatch

variable {patch : RecurrencePatch} {current : Option Recurrence} {start : Date} {r : Recurrence}

theorem frequency_pattern (patch : RecurrencePatch) (current : Option Recurrence) (start : Date) :
    (patch.pattern current start).frequency =
      (patch.frequency.or (current.map Recurrence.frequency)).getD .weekly := by
  unfold pattern
  generalize (patch.frequency.or (current.map Recurrence.frequency)).getD .weekly = frequency
  cases frequency <;> rfl

/-- A pattern that a patch made is what the patch makes of it. -/
theorem pattern_of_pattern_eq (h : r.pattern = patch.pattern current start) (start' : Date) :
    patch.pattern (some r) start' = r.pattern := by
  -- The frequency is asked for or that of the current recurrence, and both give the one of `r`.
  have hfrequency : (patch.frequency.or (some r.frequency)).getD .weekly = r.frequency := by
    rw [Recurrence.frequency, h, frequency_pattern]
    cases patch.frequency <;> rfl
  unfold pattern at h ⊢
  rw [Option.map_some, hfrequency, Option.bind_some, Option.bind_some]
  -- So the patch finds the weekdays or the day of the month that it does not name in `r` itself.
  generalize (patch.frequency.or (current.map Recurrence.frequency)).getD .weekly = frequency at h
  cases frequency with
  | daily => rw [Recurrence.frequency, h]; rfl
  | weekly =>
    rw [Recurrence.frequency, Recurrence.weekdays?_eq_some_iff.mpr h, h]
    cases patch.weekdays <;> rfl
  | monthly =>
    rw [Recurrence.frequency, Recurrence.monthlyDay?_eq_some_iff.mpr h, h]
    cases patch.monthlyDay <;> rfl
  | yearly => rw [Recurrence.frequency, h]; rfl

theorem apply_of_apply (h : patch.apply current start = .ok r) (start' : Date) :
    patch.apply (some r) start' = .ok r := by
  obtain ⟨hinterval, hpattern⟩ := Recurrence.make_eq_ok_iff.mp (Except.mapError_eq_ok_iff.mp h)
  have hsame : (patch.interval.or (some r.interval)).getD 1 = r.interval := by
    rw [hinterval]
    cases patch.interval <;> rfl
  refine Except.mapError_eq_ok_iff.mpr (Recurrence.make_eq_ok_iff.mpr ⟨?_, ?_⟩)
  · exact hsame.symm
  · exact (pattern_of_pattern_eq hpattern start').symm

end RecurrencePatch

namespace Event

variable {e e' next : Event} {u : EventUpdate}

theorem setFields_setFields (e : Event) (u : EventUpdate) :
    (e.setFields u).setFields u = e.setFields u := by
  have hgetD : ∀ {α : Type} (new : Option α) (old : α), new.getD (new.getD old) = new.getD old := by
    intro α new old
    cases new <;> rfl
  simp only [setFields, hgetD]

theorem setRepeating_setRepeating {change : Option RepeatUpdate}
    (h : e.setRepeating change = .ok next) : next.setRepeating change = .ok next := by
  cases change with
  | none => rfl
  | some change =>
    cases change with
    | off =>
      cases h
      rfl
    | on patch =>
      obtain ⟨r, hr, rfl⟩ := Except.map_eq_ok_iff.mp h
      exact Except.map_eq_ok_iff.mpr ⟨r, RecurrencePatch.apply_of_apply hr _, rfl⟩

/-- The fields that an update sets are still there when it has changed the repeating. -/
theorem setFields_of_setRepeating {change : Option RepeatUpdate}
    (h : (e.setFields u).setRepeating change = .ok next) : next.setFields u = next := by
  have hframe : next =
      { e.setFields u with repeating := next.repeating, recurrence := next.recurrence } :=
    eq_of_setRepeating h
  calc
    next.setFields u =
        { (e.setFields u).setFields u with
          repeating := next.repeating, recurrence := next.recurrence } :=
      congrArg (setFields · u) hframe
    _ = { e.setFields u with repeating := next.repeating, recurrence := next.recurrence } := by
      rw [setFields_setFields]
    _ = next := hframe.symm

/-- An update without a move that succeeds can be applied again, and changes nothing then. -/
theorem update_update {changes : Changes} (hstay : u.reschedule = none)
    (h : e.update u = .ok (e', changes)) : e'.update u = .ok (e', []) := by
  obtain ⟨hupdated, -⟩ := update_eq_ok_iff.mp h
  obtain ⟨-, next, hnext, hmoved, horder⟩ := updated_eq_ok_iff.mp hupdated
  rw [hstay] at hmoved
  obtain rfl : next = e' := hmoved
  refine update_eq_ok_iff.mpr ⟨updated_eq_ok_iff.mpr ⟨?_, next, ?_, ?_, horder⟩, ?_⟩
  · rw [hstay]
    rfl
  · rw [setFields_of_setRepeating hnext]
    exact setRepeating_setRepeating hnext
  · rw [hstay]
    rfl
  · exact (changesTo_eq_nil_iff.mpr rfl).symm

/-- A meeting on a Wednesday becomes one on every other Friday. -/
theorem update_update_every_other_friday :
    let wednesday : Date := (Date.ofParts? 2024 1 3).get (by decide)
    let friday : Date := (Date.ofParts? 2024 1 5).get (by decide)
    let e : Event := { title := "Group meeting", startDate := wednesday, entityType := .groups }
    let u : EventUpdate :=
      { startDate := some friday, repeating := some (.on { interval := some 2 }) }
    ∃ e' changes, (u.reschedule = none ∧ e.update u = .ok (e', changes)) ∧
      e'.update u = .ok (e', []) := by
  intro wednesday friday e u
  have hisOk : (e.update u).isOk = true := by decide +kernel
  obtain ⟨⟨e', changes⟩, h⟩ := Except.exists_eq_ok_of_isOk hisOk
  exact ⟨e', changes, ⟨rfl, h⟩, update_update rfl h⟩

end Event

end MeetingCalendar
