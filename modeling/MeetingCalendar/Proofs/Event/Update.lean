import MeetingCalendar.Event.Update
import MeetingCalendar.Proofs.Date.DayNumber
import MeetingCalendar.Proofs.Except
import MeetingCalendar.Proofs.Violation.Chain

/-!
# What an update does to an event

`Event.updated_eq_ok_iff` takes a successful update apart into its steps.  Every statement about
updated events is derived from it: first the fields are set, then the repeating is changed, then the
schedule may move, and the result does not end before it starts.
-/

namespace MeetingCalendar

namespace Event

/-- The event after a possible move of its schedule. -/
def movedBy (e : Event) : Option Reschedule → Event
  | some move => e.moveTo move.new
  | none => e

theorem checkReschedule_eq_ok_iff {e : Event} {reschedule : Option Reschedule} :
    e.checkReschedule reschedule = .ok () ↔
      ∀ move, reschedule = some move → e.isMeetingDate move.present = true := by
  unfold checkReschedule
  cases reschedule with
  | none => simp
  | some move =>
    simp only [Option.some.injEq, forall_eq']
    by_cases hmeets : e.isMeetingDate move.present = true
    · simp [hmeets]
    · simp [hmeets, Violation.toResult_eq_ok_iff]

theorem checkOrder_eq_ok_iff {e : Event} :
    e.checkOrder = .ok () ↔ ∀ stop, e.endDate = some stop → e.startDate ≤ stop := by
  unfold checkOrder
  cases e.endDate with
  | none => simp
  | some stop =>
    simp only [Option.some.injEq, forall_eq']
    by_cases hlt : stop < e.startDate
    · simpa [hlt, Violation.toResult_eq_ok_iff] using Date.not_le.mpr hlt
    · simpa [hlt] using Date.not_lt.mp hlt

theorem updated_eq_ok_iff {e e' : Event} {u : EventUpdate} :
    e.updated u = .ok e' ↔
      e.checkReschedule u.reschedule = .ok () ∧
        ∃ repeating, (e.setFields u).setRepeating u.repeating = .ok repeating ∧
          repeating.movedBy u.reschedule = e' ∧
          ∀ stop, e'.endDate = some stop → e'.startDate ≤ stop := by
  unfold updated
  simp only [Except.bind_eq_ok_iff, Except.pure_eq_ok_iff, ← checkOrder_eq_ok_iff]
  constructor
  · rintro ⟨⟨⟩, hcheck, repeating, hrepeating, ⟨⟩, horder, rfl⟩
    exact ⟨hcheck, repeating, hrepeating, rfl, horder⟩
  · rintro ⟨hcheck, repeating, hrepeating, rfl, horder⟩
    exact ⟨(), hcheck, repeating, hrepeating, (), horder, rfl⟩

theorem update_eq_ok_iff {e e' : Event} {u : EventUpdate} {changes : Changes} :
    e.update u = .ok (e', changes) ↔ e.updated u = .ok e' ∧ changes = e.changesTo e' := by
  unfold update
  simp only [Except.bind_eq_ok_iff, Except.pure_eq_ok_iff, Prod.mk.injEq]
  constructor
  · rintro ⟨next, hnext, rfl, rfl⟩
    exact ⟨hnext, rfl⟩
  · rintro ⟨hnext, rfl⟩
    exact ⟨e', hnext, rfl, rfl⟩

theorem eq_of_setRepeating {e next : Event} {change : Option RepeatUpdate}
    (h : e.setRepeating change = .ok next) :
    next = { e with repeating := next.repeating, recurrence := next.recurrence } := by
  cases change with
  | none =>
    cases h
    rfl
  | some change =>
    cases change with
    | off =>
      cases h
      rfl
    | on patch =>
      obtain ⟨r, -, rfl⟩ := Except.map_eq_ok_iff.mp h
      rfl

/-- Apart from the start date and the repeating, an updated event has the fields that were set. -/
theorem eq_of_updated {e e' : Event} {u : EventUpdate} (h : e.updated u = .ok e') :
    e' = { e.setFields u with
      startDate := e'.startDate, repeating := e'.repeating, recurrence := e'.recurrence } := by
  obtain ⟨-, next, hnext, rfl, -⟩ := updated_eq_ok_iff.mp h
  have hframe := eq_of_setRepeating hnext
  cases u.reschedule with
  | none =>
    rw [movedBy, hframe]
  | some move =>
    rw [movedBy, hframe]
    rfl

/-- An update that only moves the schedule succeeds when the event meets on the date it moves from
and does not end before the date it moves to. -/
theorem update_moveTo {e : Event} {move : Reschedule} (hmeets : e.isMeetingDate move.present = true)
    (hend : ∀ stop, e.endDate = some stop → move.new ≤ stop) :
    e.update { reschedule := some move } =
      .ok (e.moveTo move.new, e.changesTo (e.moveTo move.new)) := by
  rw [update_eq_ok_iff, updated_eq_ok_iff]
  refine ⟨⟨checkReschedule_eq_ok_iff.mpr ?_, e, rfl, rfl, hend⟩, rfl⟩
  rintro _ ⟨⟩
  exact hmeets

end Event

end MeetingCalendar
