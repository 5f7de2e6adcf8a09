import MeetingCalendar.Proofs.Event.Update
import MeetingCalendar.Proofs.Recurrence.Anchoring
import MeetingCalendar.Proofs.Recurrence.Patch

/-!
# Moving a schedule

An update can move the schedule of an event to a new date, which becomes the start date.  The moved
event never meets before that date.  Whether it meets on it depends on the repeat pattern: anchoring
makes every pattern fall on the new date except that of a last weekday, which keeps its kind, so it
falls on the new date only in the last seven days of a month.
-/

namespace MeetingCalendar

namespace Event

/-- The dates on which an event meets, apart from its end date. -/
def Falls (e : Event) (d : Date) : Prop :=
  match e.recurrence with
  | some r => (⟨r, e.startDate⟩ : Schedule).Occurs d
  | none => d = e.startDate

theorem isMeetingDate_iff {e : Event} {d : Date} :
    e.isMeetingDate d = true ↔ (∀ stop, e.endDate = some stop → d ≤ stop) ∧ e.Falls d := by
  have hend : (e.endDate.any fun stop ↦ stop < d) = true ↔
      ¬∀ stop, e.endDate = some stop → d ≤ stop := by
    cases e.endDate with
    | none => simp
    | some stop =>
      simp only [Option.any_some, decide_eq_true_eq, Option.some.injEq, forall_eq']
      exact Date.not_le.symm
  unfold isMeetingDate Falls
  by_cases hpast : (e.endDate.any fun stop ↦ stop < d) = true
  · rw [if_pos hpast]
    simp [hend.mp hpast]
  · rw [if_neg hpast, and_iff_right (by rwa [hend, Classical.not_not] at hpast)]
    cases e.recurrence with
    | none => simp
    | some r => exact Recurrence.isOccurrence_iff

theorem start_le_of_falls {e : Event} {d : Date} (h : e.Falls d) : e.startDate ≤ d := by
  unfold Falls at h
  cases hr : e.recurrence with
  | none =>
    rw [hr] at h
    have heq : d = e.startDate := h
    rw [heq]
    exact Date.le_refl _
  | some r =>
    rw [hr] at h
    exact Schedule.seed_le_of_occurs (s := ⟨r, e.startDate⟩) h

/-- An event does not meet before it starts. -/
theorem isMeetingDate_eq_false_of_lt {e : Event} {d : Date} (h : d < e.startDate) :
    e.isMeetingDate d = false := by
  rw [Bool.eq_false_iff, Ne, isMeetingDate_iff]
  rintro ⟨-, hfalls⟩
  exact absurd h (Date.not_lt.mpr (start_le_of_falls hfalls))

/-- The repeat pattern with which an update leaves an event before it moves the schedule. -/
def patternAfter (e : Event) (u : EventUpdate) : Option Repeat :=
  match u.repeating with
  | none => e.recurrence.map Recurrence.pattern
  | some .off => none
  | some (.on patch) => some (patch.pattern e.recurrence (u.startDate.getD e.startDate))

theorem map_pattern_of_setRepeating {e next : Event} {u : EventUpdate}
    (h : (e.setFields u).setRepeating u.repeating = .ok next) :
    next.recurrence.map Recurrence.pattern = e.patternAfter u := by
  unfold patternAfter
  cases hrepeating : u.repeating with
  | none =>
    rw [hrepeating] at h
    cases h
    rfl
  | some change =>
    rw [hrepeating] at h
    cases change with
    | off =>
      cases h
      rfl
    | on patch =>
      obtain ⟨r, hr, rfl⟩ := Except.map_eq_ok_iff.mp h
      obtain ⟨-, hpattern⟩ := Recurrence.make_eq_ok_iff.mp (Except.mapError_eq_ok_iff.mp hr)
      simp only [withRecurrence, Option.map_some, hpattern]
      rfl

/-- A moved schedule falls on its new first date, unless it is that of a last weekday and the date
is not. -/
theorem falls_moveTo_iff {e : Event} {d : Date} :
    (e.moveTo d).Falls d ↔ ∀ weekday,
      e.recurrence.map Recurrence.pattern = some (.monthly (.last weekday)) → d.IsLastWeekday := by
  unfold Falls moveTo
  cases e.recurrence with
  | none => simp
  | some r =>
    simp only [Option.map_some, Option.some.injEq]
    rw [← Repeat.selects_anchoredOn_iff]
    exact Schedule.occurs_seed_iff (s := ⟨r.anchoredOn d, d⟩)

/-- A successful move makes the new date the start date, and the event meets on no earlier date.  It
meets on the new date itself exactly when the event does not repeat on a last weekday or the new date
is one. -/
theorem isMeetingDate_reschedule_iff {e e' : Event} {u : EventUpdate} {changes : Changes}
    {move : Reschedule} (hmove : u.reschedule = some move) (h : e.update u = .ok (e', changes)) :
    e'.startDate = move.new ∧ (∀ d, d < move.new → e'.isMeetingDate d = false) ∧
      (e'.isMeetingDate move.new = true ↔
        ∀ weekday, e.patternAfter u = some (.monthly (.last weekday)) →
          move.new.IsLastWeekday) := by
  obtain ⟨hupdated, -⟩ := update_eq_ok_iff.mp h
  obtain ⟨-, next, hnext, rfl, horder⟩ := updated_eq_ok_iff.mp hupdated
  have hmoved : next.movedBy u.reschedule = next.moveTo move.new := by rw [hmove]; rfl
  rw [hmoved] at horder ⊢
  change ∀ stop, (next.moveTo move.new).endDate = some stop → move.new ≤ stop at horder
  refine ⟨rfl, fun d hd ↦ isMeetingDate_eq_false_of_lt hd, ?_⟩
  rw [isMeetingDate_iff, and_iff_right horder, ← map_pattern_of_setRepeating hnext]
  exact falls_moveTo_iff

/-- A meeting on the second Tuesday moves to a fifth Wednesday and repeats on the last one. -/
theorem isMeetingDate_reschedule_fifth_wednesday :
    let start : Date := (Date.ofParts? 2024 1 9).get (by decide)
    let present : Date := (Date.ofParts? 2024 2 13).get (by decide)
    let new : Date := (Date.ofParts? 2024 1 31).get (by decide)
    let e : Event :=
      { title := "Center meeting", startDate := start, entityType := .centers, repeating := true,
        recurrence := some ⟨1, .monthly (.nth .second .tuesday), by decide, by decide, rfl⟩ }
    let u : EventUpdate := { reschedule := some ⟨present, new⟩ }
    ∃ e' changes, u.reschedule = some ⟨present, new⟩ ∧ e.update u = .ok (e', changes) ∧
      e'.startDate = new ∧ (∀ d, d < new → e'.isMeetingDate d = false) ∧
      (e'.isMeetingDate new = true ↔
        ∀ weekday, e.patternAfter u = some (.monthly (.last weekday)) → new.IsLastWeekday) := by
  intro start present new e u
  have hpresent : e.isMeetingDate present = true := by decide +kernel
  have hupdate : e.update u = .ok (e.moveTo new, e.changesTo (e.moveTo new)) :=
    update_moveTo hpresent fun stop h ↦ absurd h.symm (Option.some_ne_none stop)
  exact ⟨_, _, rfl, hupdate, isMeetingDate_reschedule_iff rfl hupdate⟩

/-- A meeting on the last Friday that moves to the first Monday of a month repeats on the last
Monday, so the event does not meet on the day it moved to. -/
theorem isMeetingDate_reschedule_first_monday :
    let start : Date := (Date.ofParts? 2024 1 26).get (by decide)
    let present : Date := (Date.ofParts? 2024 2 23).get (by decide)
    let new : Date := (Date.ofParts? 2024 2 5).get (by decide)
    let e : Event :=
      { title := "Center meeting", startDate := start, entityType := .centers, repeating := true,
        recurrence := some ⟨1, .monthly (.last .friday), by decide, by decide, rfl⟩ }
    let u : EventUpdate := { reschedule := some ⟨present, new⟩ }
    ∃ e' changes, e.update u = .ok (e', changes) ∧ e'.startDate = new ∧
      e'.isMeetingDate new = false := by
  intro start present new e u
  have hpresent : e.isMeetingDate present = true := by decide +kernel
  have hupdate : e.update u = .ok (e.moveTo new, e.changesTo (e.moveTo new)) :=
    update_moveTo hpresent fun stop h ↦ absurd h.symm (Option.some_ne_none stop)
  exact ⟨_, _, hupdate, rfl, by decide +kernel⟩

end Event

end MeetingCalendar
