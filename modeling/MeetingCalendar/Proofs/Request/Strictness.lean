import MeetingCalendar.Handling
import MeetingCalendar.Proofs.Request.Event
import MeetingCalendar.Proofs.Request.Recurrence

/-!
# Validation is as strict as reading

A request to create an event is read by functions that do not rely on its validation.  Everything
that validation accepts can be read, and whatever reading refuses validation refuses for the same
reason: with the same parameter and constraint, or, when the parts form no recurrence, with a
violation of one of the parameters that say how an event repeats.
-/

namespace MeetingCalendar

namespace Request

variable {policy : RequestPolicy} {mode : Mode} {r : Request}

/-! ## Violations that reading finds -/

/-- What is wrong with a mandatory value is what the checks find wrong with it. -/
theorem mem_ofChecks_of_required {α : Type} {name : String} {reading : Reading α} {v : Violation}
    {test : α → Bool} {constraint : Constraint} (h : required name reading = .error v) :
    v ∈ Violation.ofChecks name reading [Check.notNull, Check.satisfies test constraint] := by
  cases reading with
  | value v raw => cases h
  | _ =>
    cases h
    simp [Violation.ofChecks_cons, Check.notNull, Check.satisfies, Reading.isMissing,
      Reading.raw?, Json.orNull]

theorem mem_ofChecks_nonempty_of_required {α : Type} {name : String} {reading : Reading α}
    {v : Violation} {isEmpty test : α → Bool} {constraint : Constraint}
    (h : required name reading = .error v) :
    v ∈ Violation.ofChecks name reading
      [Check.nonempty isEmpty, Check.satisfies test constraint] := by
  cases reading with
  | value v raw => cases h
  | _ =>
    cases h
    simp [Violation.ofChecks_cons, Check.nonempty, Check.satisfies, Reading.raw?, Json.orNull]

/-- A code that is refused in reading is refused by the checks as well. -/
theorem pair_mem_of_choice {α : Type} [Coded α] [Coded.Complete α] {name : String}
    {reading : Reading Int} {code : Int} {v : Violation} {check : Check Int}
    (hcode : reading.value? = some code) (hcheck : check reading = .pass)
    (h : choice α name code = .error v) :
    v.pair ∈ (Violation.ofChecks name reading [check, Check.inRangeOf α]).map Violation.pair := by
  obtain ⟨hrefused, hpair⟩ := choice_eq_error h
  obtain ⟨raw, rfl⟩ := Reading.value?_eq_some_iff.mp hcode
  have hfail : Check.inRangeOf α (.value code raw) =
      .fail (.notWithinRange (Coded.minCode α) (Coded.maxCode α)) := by
    unfold Coded.accepts at hrefused
    simp only [Check.inRangeOf, Check.inRange, Check.satisfies, hrefused, Bool.false_eq_true,
      if_false]
  rw [Violation.ofChecks_cons, hcheck, hpair]
  dsimp only
  rw [Violation.ofChecks_cons, hfail]
  exact List.mem_cons_self

theorem mem_titleViolations {v : Violation}
    (h : required Parameter.title (r.text Parameter.title) = .error v) :
    v ∈ r.titleViolations policy .create :=
  mem_checkIf.mpr ⟨r.isChecked_create _, mem_ofChecks_nonempty_of_required h⟩

theorem mem_dateRangeViolations {v : Violation}
    (h : required Parameter.startDate (r.date Parameter.startDate) = .error v) :
    v ∈ r.dateRangeViolations .create := by
  refine List.mem_append_left _ (mem_checkIf.mpr ⟨r.isChecked_create _, ?_⟩)
  unfold dateViolations
  rw [Violation.wellFormed_eq_satisfies .cannotBeBlank]
  exact mem_ofChecks_of_required h

theorem pair_mem_typeViolations {v : Violation} (h : r.entityType = .error v) :
    v.pair ∈ (r.typeViolations .create).map Violation.pair := by
  unfold typeViolations
  rw [checkIf, if_pos (r.isChecked_create _)]
  rcases Except.bind_eq_error_iff.mp h with h | ⟨code, hcode, h⟩
  · exact List.mem_map_of_mem (mem_ofChecks_of_required h)
  · have hvalue := required_eq_ok_iff.mp hcode
    obtain ⟨raw, hreading⟩ := Reading.value?_eq_some_iff.mp hvalue
    exact pair_mem_of_choice hvalue (by rw [hreading]; rfl) h

theorem pair_mem_remindByViolations {v : Violation}
    (h : r.choice? RemindBy Parameter.remindById = .error v) :
    v.pair ∈ r.remindByViolations.map Violation.pair := by
  unfold choice? at h
  cases hvalue : (r.integer Parameter.remindById).value? with
  | none =>
    rw [hvalue] at h
    cases h
  | some code =>
    rw [hvalue] at h
    obtain ⟨raw, hreading⟩ := Reading.value?_eq_some_iff.mp hvalue
    unfold remindByViolations
    rw [checkIf, if_pos (has_of_value? (r.isAbsent_integer _) hvalue)]
    exact pair_mem_of_choice hvalue (by rw [hreading]; rfl) (Except.map_eq_error_iff.mp h)

/-! ## Valid requests -/

/-- A valid request to create an event can be read. -/
theorem toEvent_of_valid (h : r.Valid policy .create) : ∃ e, r.toEvent = .ok e := by
  obtain ⟨title, htitle, -⟩ := h.title (r.isChecked_create _)
  obtain ⟨start, hstart⟩ := h.startDate (r.isChecked_create _)
  obtain ⟨code, hcode, haccepts⟩ := h.entityType (r.isChecked_create _)
  obtain ⟨entityType, htype⟩ := exists_choice Parameter.typeId haccepts
  have hentity : r.entityType = .ok entityType :=
    Except.bind_eq_ok_iff.mpr ⟨code, required_eq_ok_iff.mpr hcode, htype⟩
  obtain ⟨remindBy, hremindBy⟩ : ∃ v, r.choice? RemindBy Parameter.remindById = .ok v :=
    exists_choice? (Reading.forall_of_isMissing_or h.remindBy)
  obtain ⟨recurrence, hrecurrence⟩ : ∃ v, r.recurrence? start = .ok v := by
    unfold recurrence?
    by_cases hset : r.isSet Parameter.repeating = true
    · obtain ⟨v, hv⟩ := recurrence_of_valid (h.recurrence hset) start
      rw [if_pos hset, hv]
      exact ⟨some v, rfl⟩
    · rw [if_neg hset]
      exact ⟨none, rfl⟩
  unfold toEvent
  rw [required_eq_ok_iff.mpr htitle, required_eq_ok_iff.mpr hstart, hentity, hremindBy]
  exact ⟨_, Except.bind_eq_ok_iff.mpr ⟨recurrence, hrecurrence, rfl⟩⟩

/-! ## Violations that validation finds -/

/-- The parameters that say how an event repeats. -/
def recurrenceParameters : List String :=
  [Parameter.frequency, Parameter.interval, Parameter.repeatsOnDay,
    Parameter.repeatsOnNthDayOfMonth, Parameter.repeatsOnLastWeekdayOfMonth]

theorem parameter_mem_of_frequency {v : Violation} (h : v ∈ r.frequencyViolations) :
    v.parameter ∈ recurrenceParameters := by
  rcases List.mem_append.mp h with h | h
  · rw [Violation.parameter_of_mem_ofChecks h]
    decide
  · rw [Violation.parameter_of_mem_ofChecks (mem_checkIf.mp h).2]
    decide

theorem parameter_mem_of_monthly {v : Violation} (h : v ∈ r.monthlyViolations) :
    v.parameter ∈ recurrenceParameters := by
  unfold monthlyViolations exclusionViolations at h
  simp only [List.mem_append, mem_checkIf, List.mem_singleton] at h
  rcases h with ((h | h) | ⟨-, rfl⟩) | ⟨-, h⟩
  · rw [Violation.parameter_of_mem_ofChecks h]
    decide
  · rw [Violation.parameter_of_mem_ofChecks h]
    decide
  · change Parameter.repeatsOnLastWeekdayOfMonth ∈ recurrenceParameters
    decide
  · rw [Violation.parameter_of_mem_ofChecks h]
    decide

theorem parameter_mem_of_repeatDay {v : Violation} (h : v ∈ r.repeatDayViolations mode) :
    v.parameter ∈ recurrenceParameters := by
  unfold repeatDayViolations at h
  split at h
  · rw [Violation.parameter_of_mem_ofChecks (mem_checkIf.mp h).2]
    decide
  · exact parameter_mem_of_monthly h
  · cases h

/-- When the parts form no recurrence, validation finds fault with one of them. -/
theorem exists_violation_of_recurrence {start : Date} {cause : RecurrenceError}
    (hset : r.isSet Parameter.repeating = true) (h : r.recurrence start = .error cause) :
    ∃ v ∈ r.violations policy mode, v.parameter ∈ recurrenceParameters := by
  have hinvalid : r.frequencyViolations ++ r.repeatDayViolations mode ≠ [] := by
    intro hnil
    obtain ⟨recurrence, hrecurrence⟩ :=
      recurrence_of_valid (recurrenceViolations_eq_nil_iff.mp hnil) start
    rw [hrecurrence] at h
    cases h
  obtain ⟨v, hv⟩ := List.exists_mem_of_ne_nil _ hinvalid
  have hrepeat : v ∈ r.repeatViolations mode :=
    List.mem_append_right _ (mem_checkIf.mpr ⟨hset, hv⟩)
  refine ⟨v, ?_, ?_⟩
  · simp only [violations, List.mem_append, hrepeat, true_or, or_true]
  · rcases List.mem_append.mp hv with hv | hv
    · exact parameter_mem_of_frequency hv
    · exact parameter_mem_of_repeatDay hv

/-- What reading reports, validation reports as well. -/
theorem pairs_subset_of_toEvent {report : Report} (h : r.toEvent = .error (.rejected report)) :
    report.pairs ⊆ (Report.calendar (r.violations policy .create)).pairs := by
  intro pair hpair
  obtain ⟨v, hv, rfl⟩ := List.mem_map.mp hpair
  rw [violations_of_toEvent h] at hv
  simp only [List.mem_append, mem_failure?_iff] at hv
  simp only [Report.pairs, Report.calendar, violations, List.map_append, List.mem_append]
  rcases hv with ((htitle | hstart) | htype) | hremindBy
  · have hmem : v.pair ∈ (r.titleViolations policy .create).map Violation.pair :=
      List.mem_map_of_mem (mem_titleViolations htitle)
    simp only [hmem, true_or, or_true]
  · have hmem : v.pair ∈ (r.dateRangeViolations .create).map Violation.pair :=
      List.mem_map_of_mem (mem_dateRangeViolations hstart)
    simp only [hmem, true_or, or_true]
  · simp only [pair_mem_typeViolations htype, true_or, or_true]
  · simp only [pair_mem_remindByViolations hremindBy, true_or, or_true]

end Request

namespace RequestPolicy

variable {policy : RequestPolicy} {body : String}

theorem request_eq_error {error : CalendarError} (h : policy.request body = .error error) :
    (∃ cause, error = .malformed cause) ∨ ∃ names, error = .unsupported names := by
  unfold request Request.ofSupportedBody at h
  rcases Except.bind_eq_error_iff.mp h with h | ⟨r, -, h⟩
  · obtain ⟨cause, -, rfl⟩ := Except.mapError_eq_error_iff.mp h
    exact .inl ⟨cause, rfl⟩
  · split at h
    · cases h
    · cases h
      exact .inr ⟨_, rfl⟩

theorem readEvent_eq_error {error : CalendarError} (h : policy.readEvent body = .error error)
    (hmalformed : ∀ cause, error ≠ .malformed cause)
    (hunsupported : ∀ names, error ≠ .unsupported names) :
    ∃ r, policy.request body = .ok r ∧ r.toEvent = .error error := by
  rcases Except.bind_eq_error_iff.mp h with h | hread
  · rcases request_eq_error h with ⟨cause, rfl⟩ | ⟨names, rfl⟩
    · exact absurd rfl (hmalformed cause)
    · exact absurd rfl (hunsupported names)
  · exact hread

theorem validateBody_eq_error {r : Request} {mode : Mode} (hrequest : policy.request body = .ok r)
    (hne : r.violations policy mode ≠ []) :
    policy.validateBody mode body = .error (.rejected (.calendar (r.violations policy mode))) := by
  refine Except.bind_eq_error_iff.mpr (.inr ⟨r, hrequest, ?_⟩)
  exact Violation.toResult_eq_error_iff.mpr ⟨hne, rfl⟩

/-- Validation of a request to create an event is at least as strict as reading it.  What it accepts
can be read; a report of reading occurs in the report of validation; and parts that form no
recurrence are reported under one of their parameters. -/
theorem readEvent_of_validateBody (policy : RequestPolicy) (body : String) :
    (policy.validateBody .create body = .ok () →
      ∃ e, policy.createEvent body = .ok e ∧ policy.readEvent body = .ok e) ∧
    (∀ report, policy.readEvent body = .error (.rejected report) →
      ∃ found, policy.validateBody .create body = .error (.rejected found) ∧
        report.pairs ⊆ found.pairs) ∧
    (∀ cause, policy.readEvent body = .error (.invalidRecurrence cause) →
      ∃ found, policy.validateBody .create body = .error (.rejected found) ∧
        ∃ v ∈ found.violations, v.parameter ∈ Request.recurrenceParameters) := by
  refine ⟨fun h ↦ ?_, fun report h ↦ ?_, fun cause h ↦ ?_⟩
  · obtain ⟨r, hrequest, hvalidate⟩ := Except.bind_eq_ok_iff.mp h
    obtain ⟨e, he⟩ := Request.toEvent_of_valid (Request.validate_eq_ok_iff.mp hvalidate)
    have hcreate : (r.validate policy .create >>= fun _ ↦ r.toEvent) = .ok e :=
      Except.bind_eq_ok_iff.mpr ⟨(), hvalidate, he⟩
    exact ⟨e, Except.bind_eq_ok_iff.mpr ⟨r, hrequest, hcreate⟩,
      Except.bind_eq_ok_iff.mpr ⟨r, hrequest, he⟩⟩
  · obtain ⟨r, hrequest, hread⟩ := readEvent_eq_error h nofun nofun
    have hne : r.violations policy .create ≠ [] := by
      intro hnil
      obtain ⟨e, he⟩ := Request.toEvent_of_valid (Request.violations_eq_nil_iff.mp hnil)
      rw [he] at hread
      cases hread
    exact ⟨_, validateBody_eq_error hrequest hne, Request.pairs_subset_of_toEvent hread⟩
  · obtain ⟨r, hrequest, hread⟩ := readEvent_eq_error h nofun nofun
    obtain ⟨hset, start, hrecurrence⟩ := Request.recurrence_of_toEvent hread
    obtain ⟨v, hv, hparameter⟩ :
        ∃ v ∈ r.violations policy .create, v.parameter ∈ Request.recurrenceParameters :=
      Request.exists_violation_of_recurrence hset hrecurrence
    have hne : r.violations policy .create ≠ [] := List.ne_nil_of_mem hv
    exact ⟨_, validateBody_eq_error hrequest hne, v, hv, hparameter⟩

end RequestPolicy

end MeetingCalendar
