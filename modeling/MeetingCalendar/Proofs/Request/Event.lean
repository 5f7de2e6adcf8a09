import MeetingCalendar.Event.Request
import MeetingCalendar.Proofs.Coded
import MeetingCalendar.Proofs.Except
import MeetingCalendar.Proofs.Violation.Chain

/-!
# Events and updates in requests

What a request must say to be read as an event or as an update, and why it cannot be.  Reading takes
the fields as they are, without the limits of a policy.
-/

namespace MeetingCalendar

namespace Reading

theorem patch?_eq_some_some_iff {α : Type} {reading : Reading α} {v : α} :
    reading.patch? = some (some v) ↔ reading.value? = some v := by
  cases reading <;> simp [patch?, value?]

end Reading

namespace Request

variable {r : Request}

/-! ## Mandatory values and choices -/

theorem required_eq_ok_iff {α : Type} {name : String} {reading : Reading α} {v : α} :
    required name reading = .ok v ↔ reading.value? = some v := by
  cases reading <;> simp [required, Reading.value?]

theorem choice_eq_ok_iff {α : Type} [Coded α] {name : String} {code : Int} {v : α} :
    choice α name code = .ok v ↔ Coded.accepted? α code = some v := by
  unfold choice
  cases Coded.accepted? α code <;> simp

/-- A code is refused when it is out of range. -/
theorem choice_eq_error {α : Type} [Coded α] [Coded.Complete α] {name : String} {code : Int}
    {v : Violation} (h : choice α name code = .error v) :
    Coded.accepts α code = false ∧
      v.pair = (name, .notWithinRange (Coded.minCode α) (Coded.maxCode α)) := by
  unfold choice at h
  split at h
  · cases h
  · next hnone =>
    cases h
    exact ⟨Coded.accepted?_eq_none_iff.mp hnone, rfl⟩

theorem exists_choice {α : Type} [Coded α] [Coded.Complete α] (name : String) {code : Int}
    (h : Coded.accepts α code = true) : ∃ v : α, choice α name code = .ok v := by
  obtain ⟨v, hv⟩ := Coded.exists_accepted?_iff.mpr h
  exact ⟨v, choice_eq_ok_iff.mpr hv⟩

/-- A code that a request may use, or none at all, can be read. -/
theorem exists_choice? {α : Type} [Coded α] [Coded.Complete α] {name : String}
    (h : ∀ code, (r.integer name).value? = some code → Coded.accepts α code = true) :
    ∃ v, r.choice? α name = .ok v := by
  unfold choice?
  cases hvalue : (r.integer name).value? with
  | none => exact ⟨none, rfl⟩
  | some code =>
    obtain ⟨v, hv⟩ := exists_choice (α := α) name (h code hvalue)
    exact ⟨some v, Except.map_eq_ok_iff.mpr ⟨v, hv, rfl⟩⟩

theorem mem_failure?_iff {α : Type} {result : Except Violation α} {v : Violation} :
    v ∈ failure? result ↔ result = .error v := by
  cases result <;> simp [failure?, eq_comm]

/-! ## Events -/

theorem recurrence?_eq_ok_iff {start : Date} {found : Option Recurrence} :
    r.recurrence? start = .ok found ↔
      (r.isSet Parameter.repeating = true ∧ ∃ v, r.recurrence start = .ok v ∧ some v = found) ∨
        (r.isSet Parameter.repeating = false ∧ none = found) := by
  unfold recurrence?
  cases r.isSet Parameter.repeating <;> simp

theorem recurrence?_eq_error_iff {start : Date} {error : CalendarError} :
    r.recurrence? start = .error error ↔ r.isSet Parameter.repeating = true ∧
      ∃ cause, r.recurrence start = .error cause ∧ .invalidRecurrence cause = error := by
  unfold recurrence?
  cases r.isSet Parameter.repeating <;> simp

/-- Reading fails with a report when a mandatory value or a code cannot be read. -/
theorem violations_of_toEvent {report : Report} (h : r.toEvent = .error (.rejected report)) :
    report.violations = failure? (required Parameter.title (r.text Parameter.title)) ++
      failure? (required Parameter.startDate (r.date Parameter.startDate)) ++
      failure? r.entityType ++ failure? (r.choice? RemindBy Parameter.remindById) := by
  unfold toEvent at h
  dsimp only at h
  split at h
  · rcases Except.bind_eq_error_iff.mp h with h | ⟨recurrence, -, h⟩
    · obtain ⟨-, cause, -, h⟩ := recurrence?_eq_error_iff.mp h
      cases h
    · cases h
  · cases h
    rfl

/-- Reading fails otherwise only for a recurrence. -/
theorem recurrence_of_toEvent {cause : RecurrenceError}
    (h : r.toEvent = .error (.invalidRecurrence cause)) :
    r.isSet Parameter.repeating = true ∧ ∃ start, r.recurrence start = .error cause := by
  unfold toEvent at h
  dsimp only at h
  split at h
  · rcases Except.bind_eq_error_iff.mp h with h | ⟨recurrence, -, h⟩
    · obtain ⟨hset, cause', hcause, h⟩ := recurrence?_eq_error_iff.mp h
      cases h
      exact ⟨hset, _, hcause⟩
    · cases h
  · cases h

theorem toEvent_eq_ok_iff {e : Event} :
    r.toEvent = .ok e ↔
      ∃ title startDate entityType remindBy recurrence,
        (r.text Parameter.title).value? = some title ∧
        (r.date Parameter.startDate).value? = some startDate ∧
        r.entityType = .ok entityType ∧
        r.choice? RemindBy Parameter.remindById = .ok remindBy ∧
        r.recurrence? startDate = .ok recurrence ∧
        e = {
          title, startDate, entityType, remindBy, recurrence
          repeating := recurrence.isSome
          description := (r.text Parameter.description).value?
          location := (r.text Parameter.location).value?
          endDate := (r.date Parameter.endDate).value?
          duration := (r.integer Parameter.duration).value?
          firstReminderOffset := (r.integer Parameter.firstReminderOffset).value?
          secondReminderOffset := (r.integer Parameter.secondReminderOffset).value?
          meetingTime := (r.time Parameter.meetingTime).value? } := by
  constructor
  · intro h
    unfold toEvent at h
    dsimp only at h
    split at h
    · next title startDate entityType remindBy htitle hstart htype hremind =>
      obtain ⟨recurrence, hrecurrence, he⟩ := Except.bind_eq_ok_iff.mp h
      cases he
      exact ⟨title, startDate, entityType, remindBy, recurrence, required_eq_ok_iff.mp htitle,
        required_eq_ok_iff.mp hstart, htype, hremind, hrecurrence, rfl⟩
    · cases h
  · rintro ⟨title, startDate, entityType, remindBy, recurrence, htitle, hstart, htype, hremind,
      hrecurrence, rfl⟩
    unfold toEvent
    rw [required_eq_ok_iff.mpr htitle, required_eq_ok_iff.mpr hstart, htype, hremind]
    exact Except.bind_eq_ok_iff.mpr ⟨recurrence, hrecurrence, rfl⟩

/-! ## Updates -/

theorem repeatUpdate?_eq_on {patch : RecurrencePatch}
    (h : r.repeatUpdate? = .ok (some (.on patch))) : r.recurrencePatch = .ok patch := by
  unfold repeatUpdate? at h
  split at h
  · obtain ⟨found, hfound, heq⟩ := Except.map_eq_ok_iff.mp h
    cases heq
    exact hfound
  · cases h
  · cases h

theorem toUpdate_eq_ok_iff {u : EventUpdate} :
    r.toUpdate = .ok u ↔
      ∃ entityType remindBy repeating,
        r.choice? EntityType Parameter.typeId = .ok entityType ∧
        r.choice? RemindBy Parameter.remindById = .ok remindBy ∧
        r.repeatUpdate? = .ok repeating ∧
        u = {
          entityType, repeating
          title := (r.text Parameter.title).value?
          description := (r.text Parameter.description).patch?
          location := (r.text Parameter.location).patch?
          startDate := (r.date Parameter.startDate).value?
          endDate := (r.date Parameter.endDate).patch?
          duration := (r.integer Parameter.duration).patch?
          remindBy := (r.integer Parameter.remindById).patch?.map fun _ ↦ remindBy
          firstReminderOffset := (r.integer Parameter.firstReminderOffset).patch?
          secondReminderOffset := (r.integer Parameter.secondReminderOffset).patch?
          meetingTime := (r.time Parameter.meetingTime).patch?
          reschedule := r.reschedule? } := by
  constructor
  · intro h
    unfold toUpdate at h
    dsimp only at h
    split at h
    · next entityType remindBy htype hremind =>
      obtain ⟨repeating, hrepeating, hu⟩ := Except.bind_eq_ok_iff.mp h
      cases hu
      exact ⟨entityType, remindBy, repeating, htype, hremind,
        Except.mapError_eq_ok_iff.mp hrepeating, rfl⟩
    · cases h
  · rintro ⟨entityType, remindBy, repeating, htype, hremind, hrepeating, rfl⟩
    unfold toUpdate
    rw [htype, hremind]
    exact Except.bind_eq_ok_iff.mpr
      ⟨repeating, Except.mapError_eq_ok_iff.mpr hrepeating, rfl⟩

end Request

end MeetingCalendar
