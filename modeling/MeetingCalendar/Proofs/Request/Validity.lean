import MeetingCalendar.Proofs.Date.DayNumber
import MeetingCalendar.Proofs.Violation.Chain
import MeetingCalendar.Validation

/-!
# Valid requests

The rules of a request, said of what its fields read as: which of them must be there, and which
values they may have.  `Request.violations_eq_nil_iff` shows that a request without violations is one
that keeps the rules, so that nothing else needs to look into the checks.
-/

namespace MeetingCalendar

namespace Reading

/-- What is not in a request reads as absent. -/
theorem isAbsent_of {α : Type} (expected : Expected) (parse : Json → Parsed α)
    (value : Option Json) : (Reading.of expected parse value).isAbsent = value.isNone := by
  cases value with
  | none => rfl
  | some value =>
    cases value with
    | null => rfl
    | _ =>
      simp only [Reading.of, Option.isNone_some]
      split <;> rfl

/-- A value other than null is read by the reader of its kind. -/
theorem of_some {α : Type} {expected : Expected} {parse : Json → Parsed α} {value : Json}
    (h : value ≠ .null) :
    Reading.of expected parse (some value) =
      match parse value with
      | .blank => .null
      | .value v => .value v value
      | .invalid => .invalid value expected := by
  cases value with
  | null => exact absurd rfl h
  | _ => rfl

theorem isMissing_of_isAbsent {α : Type} {reading : Reading α} (h : reading.isAbsent = true) :
    reading.isMissing = true := by
  cases reading with
  | absent => rfl
  | _ => exact absurd h nofun

/-- What a parameter that is there must satisfy holds of its value. -/
theorem forall_of_isMissing_or {α : Type} {reading : Reading α} {P : α → Prop}
    (h : reading.isMissing = true ∨ ∃ w, reading.value? = some w ∧ P w) :
    ∀ v, reading.value? = some v → P v := by
  intro v hv
  rcases h with hmissing | ⟨w, hw, hP⟩
  · rw [value?_of_isMissing hmissing] at hv
    cases hv
  · obtain rfl : v = w := Option.some.inj (hv.symm.trans hw)
    exact hP

end Reading

namespace Request

/-- The frequency with the code in a request, if there is one. -/
def codedFrequency? (r : Request) : Option Frequency :=
  (r.integer Parameter.frequency).value?.bind Coded.ofCode?

/-- What a request to move a meeting must say: with the flag set, both dates. -/
structure ValidReschedule (r : Request) : Prop where
  flag : r.has Parameter.rescheduleBasedOnMeetingDates = true →
    ∃ b, (r.boolean Parameter.rescheduleBasedOnMeetingDates).value? = some b
  dates : ∀ name ∈ [Parameter.presentMeetingDate, Parameter.newMeetingDate],
    r.isSet Parameter.rescheduleBasedOnMeetingDates = true ∨ r.has name = true →
      ∃ d, (r.date name).value? = some d

/-- What a request may say of the day of the month: the place of a weekday together with the weekday,
or a last weekday, or nothing. -/
structure ValidMonthlyDay (r : Request) : Prop where
  nth : (r.integer Parameter.repeatsOnNthDayOfMonth).isMissing = true ∨
    ∃ n, (r.integer Parameter.repeatsOnNthDayOfMonth).value? = some n ∧
      Coded.accepts Ordinal n = true
  last : (r.integer Parameter.repeatsOnLastWeekdayOfMonth).isMissing = true ∨
    ∃ n, (r.integer Parameter.repeatsOnLastWeekdayOfMonth).value? = some n ∧
      Coded.accepts Weekday n = true
  exclusive : (r.integer Parameter.repeatsOnNthDayOfMonth).isMissing = true ∨
    (r.integer Parameter.repeatsOnLastWeekdayOfMonth).isMissing = true
  weekday : ∀ n, (r.integer Parameter.repeatsOnNthDayOfMonth).value? = some n →
    Coded.accepts Ordinal n = true →
      ∃ day, (r.integer Parameter.repeatsOnDay).value? = some day ∧ Coded.accepts Weekday day = true

/-- What a request must say of how an event repeats. -/
structure ValidRecurrence (mode : Mode) (r : Request) : Prop where
  frequency : ∃ n, (r.integer Parameter.frequency).value? = some n ∧
    Coded.accepts Frequency n = true
  interval : r.has Parameter.interval = true →
    ∃ n, (r.integer Parameter.interval).value? = some n ∧ 1 ≤ n ∧ n ≤ Recurrence.maxInterval
  weekly : r.codedFrequency? = some .weekly → r.isChecked mode Parameter.repeatsOnDay = true →
    ∃ days, (r.integers Parameter.repeatsOnDay).value? = some days ∧ days ≠ [] ∧
      ∀ day ∈ days, Coded.accepts Weekday day = true
  monthly : r.codedFrequency? = some .monthly → r.ValidMonthlyDay

/-- A request that keeps the rules. -/
structure Valid (policy : RequestPolicy) (mode : Mode) (r : Request) : Prop where
  reschedule : mode = .update → r.ValidReschedule
  title : r.isChecked mode Parameter.title = true →
    ∃ s, (r.text Parameter.title).value? = some s ∧ Text.isBlank s = false ∧
      s.length ≤ policy.titleMaxLength
  description : (r.text Parameter.description).isMissing = true ∨
    ∃ s, (r.text Parameter.description).value? = some s ∧ s.length ≤ policy.descriptionMaxLength
  location : (r.text Parameter.location).isMissing = true ∨
    ∃ s, (r.text Parameter.location).value? = some s ∧ s.length ≤ policy.locationMaxLength
  startDate : r.isChecked mode Parameter.startDate = true →
    ∃ d, (r.date Parameter.startDate).value? = some d
  endDate : r.has Parameter.endDate = true →
    ∃ stop, (r.date Parameter.endDate).value? = some stop ∧
      ∀ start, (r.date Parameter.startDate).value? = some start → start ≤ stop
  duration : (r.integer Parameter.duration).isMissing = true ∨
    ∃ n, (r.integer Parameter.duration).value? = some n
  entityType : r.isChecked mode Parameter.typeId = true →
    ∃ n, (r.integer Parameter.typeId).value? = some n ∧ Coded.accepts EntityType n = true
  repeating : r.has Parameter.repeating = true →
    ∃ b, (r.boolean Parameter.repeating).value? = some b
  recurrence : r.isSet Parameter.repeating = true → r.ValidRecurrence mode
  remindBy : (r.integer Parameter.remindById).isMissing = true ∨
    ∃ n, (r.integer Parameter.remindById).value? = some n ∧ Coded.accepts RemindBy n = true
  offset : ∀ name ∈ [Parameter.firstReminderOffset, Parameter.secondReminderOffset],
    (r.integer name).isMissing = true ∨
      ∃ n, (r.integer name).value? = some n ∧
        (mode = .create ∨ policy.offsetsOnUpdate = .positive → 0 < n)
  meetingTime : (r.time Parameter.meetingTime).isMissing = true ∨
    ∃ t, (r.time Parameter.meetingTime).value? = some t

/-! ## Sections without violations -/

theorem checkIf_eq_nil_iff {applies : Bool} {violations : List Violation} :
    checkIf applies violations = [] ↔ (applies = true → violations = []) := by
  cases applies <;> simp [checkIf]

theorem mem_checkIf {applies : Bool} {violations : List Violation} {v : Violation} :
    v ∈ checkIf applies violations ↔ applies = true ∧ v ∈ violations := by
  cases applies <;> simp [checkIf]

theorem isChecked_create (r : Request) (name : String) : r.isChecked .create name = true :=
  rfl

theorem isAbsent_text (r : Request) (name : String) :
    (r.text name).isAbsent = !r.has name := by
  rw [text, Reading.isAbsent_of, has, Option.not_isSome]

theorem isAbsent_integer (r : Request) (name : String) :
    (r.integer name).isAbsent = !r.has name := by
  rw [integer, Reading.isAbsent_of, has, Option.not_isSome]

theorem isAbsent_integers (r : Request) (name : String) :
    (r.integers name).isAbsent = !r.has name := by
  rw [integers, Reading.isAbsent_of, has, Option.not_isSome]

theorem isAbsent_date (r : Request) (name : String) :
    (r.date name).isAbsent = !r.has name := by
  rw [date, Reading.isAbsent_of, has, Option.not_isSome]

theorem isAbsent_time (r : Request) (name : String) :
    (r.time name).isAbsent = !r.has name := by
  rw [time, Reading.isAbsent_of, has, Option.not_isSome]

/-- A parameter with a value is in the request. -/
theorem has_of_value? {α : Type} {r : Request} {name : String} {reading : Reading α}
    (habsent : reading.isAbsent = !r.has name) {v : α} (hv : reading.value? = some v) :
    r.has name = true := by
  cases reading with
  | value v raw => simpa [Reading.isAbsent] using habsent
  | _ => cases hv

theorem isChecked_of_value? {α : Type} {r : Request} {mode : Mode} {name : String}
    {reading : Reading α} {v : α} (habsent : reading.isAbsent = !r.has name)
    (hv : reading.value? = some v) : r.isChecked mode name = true := by
  rw [isChecked, has_of_value? habsent hv, Bool.or_true]

/-- A flag that is not in the request is not set. -/
theorem isSet_eq_false_of_has {r : Request} {name : String} (h : r.has name = false) :
    r.isSet name = false := by
  unfold isSet boolean
  unfold has at h
  rw [Option.isSome_eq_false_iff, Option.isNone_iff_eq_none] at h
  rw [h]
  rfl

/-- A chain for optional parameters finds nothing in what is not there, so it does not matter that it
is run only for what is there. -/
theorem checkIf_has_eq_nil_iff {α : Type} {r : Request} {name : String} {reading : Reading α}
    {checks : List (Check α)} (habsent : reading.isAbsent = !r.has name) :
    checkIf (r.has name) (Violation.ofChecks name reading (Check.ignoreIfNull :: checks)) = [] ↔
      reading.isMissing = true ∨ Violation.ofChecks name reading checks = [] := by
  rw [checkIf_eq_nil_iff, Violation.ofChecks_ignoreIfNull_eq_nil_iff]
  constructor
  · intro h
    cases hhas : r.has name with
    | true => exact h hhas
    | false =>
      left
      apply Reading.isMissing_of_isAbsent
      rw [habsent, hhas]
      rfl
  · intro h _
    exact h

variable {policy : RequestPolicy} {mode : Mode} {r : Request} {name : String}

theorem flagViolations_eq_nil_iff :
    r.flagViolations name = [] ↔
      (r.has name = true → ∃ b, (r.boolean name).value? = some b) := by
  unfold flagViolations
  rw [checkIf_eq_nil_iff, Violation.wellFormed_eq_satisfies .invalidBoolean,
    Violation.ofChecks_mandatory_eq_nil_iff]
  simp only [and_true]

theorem dateViolations_eq_nil_iff :
    r.dateViolations name = [] ↔ ∃ d, (r.date name).value? = some d := by
  unfold dateViolations
  rw [Violation.wellFormed_eq_satisfies .cannotBeBlank, Violation.ofChecks_mandatory_eq_nil_iff]
  simp only [and_true]

theorem rescheduleViolations_eq_nil_iff : r.rescheduleViolations = [] ↔ r.ValidReschedule := by
  simp only [rescheduleViolations, List.append_eq_nil_iff, List.flatMap_eq_nil_iff,
    flagViolations_eq_nil_iff, checkIf_eq_nil_iff, dateViolations_eq_nil_iff, Bool.or_eq_true]
  constructor
  · rintro ⟨hflag, hdates⟩
    exact ⟨hflag, hdates⟩
  · rintro ⟨hflag, hdates⟩
    exact ⟨hflag, hdates⟩

theorem titleViolations_eq_nil_iff :
    r.titleViolations policy mode = [] ↔ (r.isChecked mode Parameter.title = true →
      ∃ s, (r.text Parameter.title).value? = some s ∧ Text.isBlank s = false ∧
        s.length ≤ policy.titleMaxLength) := by
  simp only [titleViolations, checkIf_eq_nil_iff, Check.notBlank, Check.maxLength,
    Violation.ofChecks_nonempty_satisfies_eq_nil_iff, decide_eq_true_eq]

theorem optionalTextViolations_eq_nil_iff {max : Nat} :
    r.optionalTextViolations name max = [] ↔
      (r.text name).isMissing = true ∨ ∃ s, (r.text name).value? = some s ∧ s.length ≤ max := by
  unfold optionalTextViolations
  rw [checkIf_has_eq_nil_iff (r.isAbsent_text name), Check.maxLength,
    Violation.ofChecks_satisfies_eq_nil_iff, Violation.ofChecks_nil]
  simp only [and_true, or_self_left, decide_eq_true_eq]

theorem orderViolations_eq_nil_iff {stop : Date}
    (hstop : (r.date Parameter.endDate).value? = some stop) :
    r.orderViolations = [] ↔
      ∀ start, (r.date Parameter.startDate).value? = some start → start ≤ stop := by
  obtain ⟨raw, hend⟩ := Reading.value?_eq_some_iff.mp hstop
  unfold orderViolations
  rw [hend]
  cases r.date Parameter.startDate with
  | value start raw' =>
    simp only [Reading.value?, Option.some.injEq, forall_eq']
    rw [← Date.not_lt]
    by_cases hlt : stop < start <;> simp [hlt]
  | _ => simp [Reading.value?]

theorem dateRangeViolations_eq_nil_iff :
    r.dateRangeViolations mode = [] ↔
      (r.isChecked mode Parameter.startDate = true →
        ∃ d, (r.date Parameter.startDate).value? = some d) ∧
      (r.has Parameter.endDate = true →
        ∃ stop, (r.date Parameter.endDate).value? = some stop ∧
          ∀ start, (r.date Parameter.startDate).value? = some start → start ≤ stop) := by
  simp only [dateRangeViolations, List.append_eq_nil_iff, checkIf_eq_nil_iff,
    dateViolations_eq_nil_iff]
  refine and_congr_right fun _ ↦ imp_congr_right fun _ ↦ ?_
  constructor
  · rintro ⟨⟨stop, hstop⟩, horder⟩
    exact ⟨stop, hstop, (orderViolations_eq_nil_iff hstop).mp horder⟩
  · rintro ⟨stop, hstop, horder⟩
    exact ⟨⟨stop, hstop⟩, (orderViolations_eq_nil_iff hstop).mpr horder⟩

theorem durationViolations_eq_nil_iff :
    r.durationViolations = [] ↔ (r.integer Parameter.duration).isMissing = true ∨
      ∃ n, (r.integer Parameter.duration).value? = some n := by
  unfold durationViolations
  rw [checkIf_has_eq_nil_iff (r.isAbsent_integer _), Violation.ofChecks_wellFormed_eq_nil_iff,
    Violation.ofChecks_nil]
  simp only [and_true, or_self_left]

theorem typeViolations_eq_nil_iff :
    r.typeViolations mode = [] ↔ (r.isChecked mode Parameter.typeId = true →
      ∃ n, (r.integer Parameter.typeId).value? = some n ∧ Coded.accepts EntityType n = true) := by
  simp only [typeViolations, checkIf_eq_nil_iff, Check.inRangeOf, Check.inRange,
    Violation.ofChecks_mandatory_eq_nil_iff, Coded.accepts]

theorem monthlyViolations_eq_nil_iff : r.monthlyViolations = [] ↔ r.ValidMonthlyDay := by
  simp only [monthlyViolations, exclusionViolations, List.append_eq_nil_iff, checkIf_eq_nil_iff,
    Check.inRangeOf, Check.inRange, Violation.ofChecks_optional_eq_nil_iff,
    Violation.ofChecks_mandatory_eq_nil_iff]
  constructor
  · rintro ⟨⟨⟨hnth, hlast⟩, hexclusive⟩, hweekday⟩
    refine ⟨hnth, hlast, ?_, ?_⟩
    · simpa [Classical.or_iff_not_imp_left] using hexclusive
    · intro n hn haccepts
      apply hweekday
      rw [hn, Option.any_some, haccepts]
  · rintro ⟨hnth, hlast, hexclusive, hweekday⟩
    refine ⟨⟨⟨hnth, hlast⟩, ?_⟩, ?_⟩
    · simpa [Classical.or_iff_not_imp_left] using hexclusive
    · intro hany
      obtain ⟨n, hn, haccepts⟩ := (Option.any_eq_true _ _).mp hany
      exact hweekday n hn haccepts

theorem weeklyViolations_eq_nil_iff :
    r.weeklyViolations mode = [] ↔ (r.isChecked mode Parameter.repeatsOnDay = true →
      ∃ days, (r.integers Parameter.repeatsOnDay).value? = some days ∧ days ≠ [] ∧
        ∀ day ∈ days, Coded.accepts Weekday day = true) := by
  simp only [weeklyViolations, checkIf_eq_nil_iff, Check.notEmpty, Check.eachInRangeOf,
    Violation.ofChecks_nonempty_satisfies_eq_nil_iff, List.all_eq_true, List.isEmpty_eq_false_iff]

theorem frequencyViolations_eq_nil_iff :
    r.frequencyViolations = [] ↔
      (∃ n, (r.integer Parameter.frequency).value? = some n ∧ Coded.accepts Frequency n = true) ∧
      (r.has Parameter.interval = true →
        ∃ n, (r.integer Parameter.interval).value? = some n ∧ 1 ≤ n ∧
          n ≤ Recurrence.maxInterval) := by
  simp only [frequencyViolations, List.append_eq_nil_iff, checkIf_eq_nil_iff, Check.inRangeOf,
    Check.inRange, Check.positive, Violation.ofChecks_mandatory_eq_nil_iff,
    Violation.ofChecks_mandatory_both_eq_nil_iff, Coded.accepts, Bool.and_eq_true,
    decide_eq_true_eq]
  -- The check for a positive interval is part of the check of its range.
  have hpositive : ∀ n : Int, (0 < n ∧ 1 ≤ n ∧ n ≤ Recurrence.maxInterval) ↔
      (1 ≤ n ∧ n ≤ Recurrence.maxInterval) := fun n ↦ by omega
  simp only [hpositive]

theorem repeatDayViolations_eq_nil_iff :
    r.repeatDayViolations mode = [] ↔
      (r.codedFrequency? = some .weekly → r.weeklyViolations mode = []) ∧
        (r.codedFrequency? = some .monthly → r.monthlyViolations = []) := by
  unfold repeatDayViolations codedFrequency?
  cases (r.integer Parameter.frequency).value?.bind (Coded.ofCode? (α := Frequency)) with
  | none => simp
  | some frequency => cases frequency <;> simp

theorem recurrenceViolations_eq_nil_iff :
    r.frequencyViolations ++ r.repeatDayViolations mode = [] ↔ r.ValidRecurrence mode := by
  rw [List.append_eq_nil_iff, frequencyViolations_eq_nil_iff, repeatDayViolations_eq_nil_iff,
    weeklyViolations_eq_nil_iff, monthlyViolations_eq_nil_iff]
  constructor
  · rintro ⟨⟨hfrequency, hinterval⟩, hweekly, hmonthly⟩
    exact ⟨hfrequency, hinterval, hweekly, hmonthly⟩
  · rintro ⟨hfrequency, hinterval, hweekly, hmonthly⟩
    exact ⟨⟨hfrequency, hinterval⟩, hweekly, hmonthly⟩

theorem repeatViolations_eq_nil_iff :
    r.repeatViolations mode = [] ↔
      (r.has Parameter.repeating = true →
        ∃ b, (r.boolean Parameter.repeating).value? = some b) ∧
      (r.isSet Parameter.repeating = true → r.ValidRecurrence mode) := by
  unfold repeatViolations
  rw [List.append_eq_nil_iff, flagViolations_eq_nil_iff, checkIf_eq_nil_iff,
    recurrenceViolations_eq_nil_iff]

theorem remindByViolations_eq_nil_iff :
    r.remindByViolations = [] ↔ (r.integer Parameter.remindById).isMissing = true ∨
      ∃ n, (r.integer Parameter.remindById).value? = some n ∧ Coded.accepts RemindBy n = true := by
  unfold remindByViolations
  rw [checkIf_has_eq_nil_iff (r.isAbsent_integer _), Check.inRangeOf, Check.inRange,
    Violation.ofChecks_satisfies_eq_nil_iff, Violation.ofChecks_nil]
  simp only [and_true, or_self_left, Coded.accepts]

theorem offsetViolations_eq_nil_iff :
    r.offsetViolations policy mode name = [] ↔ (r.integer name).isMissing = true ∨
      ∃ n, (r.integer name).value? = some n ∧
        (mode = .create ∨ policy.offsetsOnUpdate = .positive → 0 < n) := by
  unfold offsetViolations offsetChecks
  rw [List.cons_append, checkIf_has_eq_nil_iff (r.isAbsent_integer _), List.cons_append,
    List.nil_append, Violation.ofChecks_wellFormed_eq_nil_iff]
  by_cases hpositive : mode = .create ∨ policy.offsetsOnUpdate = .positive
  · rw [if_pos (by simpa using hpositive), Check.positive, Violation.ofChecks_satisfies_eq_nil_iff,
      Violation.ofChecks_nil]
    cases r.integer name <;> simp [Reading.isMissing, Reading.value?, hpositive]
  · rw [if_neg (by simpa using hpositive), Violation.ofChecks_nil]
    simp [hpositive]

theorem meetingTimeViolations_eq_nil_iff :
    r.meetingTimeViolations = [] ↔ (r.time Parameter.meetingTime).isMissing = true ∨
      ∃ t, (r.time Parameter.meetingTime).value? = some t := by
  unfold meetingTimeViolations
  rw [checkIf_has_eq_nil_iff (r.isAbsent_time _), Violation.ofChecks_wellFormed_eq_nil_iff,
    Violation.ofChecks_nil]
  simp only [and_true, or_self_left]

/-- A request has no violations exactly when it keeps the rules. -/
theorem violations_eq_nil_iff : r.violations policy mode = [] ↔ r.Valid policy mode := by
  simp only [violations, List.append_eq_nil_iff, checkIf_eq_nil_iff, beq_iff_eq,
    rescheduleViolations_eq_nil_iff, titleViolations_eq_nil_iff,
    optionalTextViolations_eq_nil_iff, dateRangeViolations_eq_nil_iff,
    durationViolations_eq_nil_iff, typeViolations_eq_nil_iff, repeatViolations_eq_nil_iff,
    remindByViolations_eq_nil_iff, offsetViolations_eq_nil_iff, meetingTimeViolations_eq_nil_iff]
  constructor
  · rintro ⟨⟨⟨⟨⟨⟨⟨⟨⟨⟨⟨hreschedule, htitle⟩, hdescription⟩, hlocation⟩, hstart, hend⟩, hduration⟩,
      htype⟩, hrepeating, hrecurrence⟩, hremind⟩, hfirst⟩, hsecond⟩, htime⟩
    have hoffset : ∀ name ∈ [Parameter.firstReminderOffset, Parameter.secondReminderOffset],
        (r.integer name).isMissing = true ∨ ∃ n, (r.integer name).value? = some n ∧
          (mode = .create ∨ policy.offsetsOnUpdate = .positive → 0 < n) := by
      simp only [List.forall_mem_cons, List.not_mem_nil, false_implies, implies_true, and_true]
      exact ⟨hfirst, hsecond⟩
    exact ⟨hreschedule, htitle, hdescription, hlocation, hstart, hend, hduration, htype,
      hrepeating, hrecurrence, hremind, hoffset, htime⟩
  · intro h
    have hfirst := h.offset Parameter.firstReminderOffset (by decide)
    have hsecond := h.offset Parameter.secondReminderOffset (by decide)
    exact ⟨⟨⟨⟨⟨⟨⟨⟨⟨⟨⟨h.reschedule, h.title⟩, h.description⟩, h.location⟩, h.startDate, h.endDate⟩,
      h.duration⟩, h.entityType⟩, h.repeating, h.recurrence⟩, h.remindBy⟩, hfirst⟩, hsecond⟩,
      h.meetingTime⟩

theorem validate_eq_ok_iff : r.validate policy mode = .ok () ↔ r.Valid policy mode := by
  rw [validate, Violation.toResult_eq_ok_iff, violations_eq_nil_iff]

end Request

end MeetingCalendar
