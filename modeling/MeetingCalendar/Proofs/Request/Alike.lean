import MeetingCalendar.Event.Request
import MeetingCalendar.Proofs.Request.Independence

/-!
# Requests that are read alike

Two requests are read alike if every parameter is read as the same in both, whatever JSON value was
there to be read.  No check and no part of an event looks at the JSON value itself.  It shows in the
reports only, as the value that comes with a violation: requests that are read alike break the same
constraints under the same parameters, and they describe the same event and the same update.
-/

namespace MeetingCalendar

/-- Two readings differ at most in the JSON value that was read. -/
inductive Reading.Alike {α : Type} : Reading α → Reading α → Prop where
  | absent : Alike .absent .absent
  | null : Alike .null .null
  | invalid (raw raw' : Json) (expected : Expected) :
      Alike (.invalid raw expected) (.invalid raw' expected)
  | value (v : α) (raw raw' : Json) : Alike (.value v raw) (.value v raw')

/-- A check does not look at the JSON value that was read. -/
def Check.IgnoresRaw {α : Type} (check : Check α) : Prop :=
  ∀ ⦃reading other : Reading α⦄, reading.Alike other → check reading = check other

/-- All parameters of two requests are read alike, and the dates and times are the same. -/
structure Request.Alike (r r' : Request) : Prop where
  text : ∀ name, (r.text name).Alike (r'.text name)
  integer : ∀ name, (r.integer name).Alike (r'.integer name)
  integers : ∀ name, (r.integers name).Alike (r'.integers name)
  boolean : ∀ name, (r.boolean name).Alike (r'.boolean name)
  date : ∀ name ∈ Parameter.dates, r.date name = r'.date name
  meetingTime : r.time Parameter.meetingTime = r'.time Parameter.meetingTime

/-- Reading a part of a request succeeds with the same value or fails with the same violation, the
JSON value of which may differ. -/
inductive Request.ReadAlike {α : Type} : Except Violation α → Except Violation α → Prop where
  | ok (v : α) : ReadAlike (.ok v) (.ok v)
  | error {v v' : Violation} (h : v.pair = v'.pair) : ReadAlike (.error v) (.error v')

/-- The outcome is the same, but for the JSON values in a report. -/
inductive CalendarError.SameOutcome {α : Type} :
    Except CalendarError α → Except CalendarError α → Prop where
  | same (outcome : Except CalendarError α) : SameOutcome outcome outcome
  | rejected {report report' : Report} (h : report.pairs = report'.pairs) :
      SameOutcome (.error (.rejected report)) (.error (.rejected report'))

/-! ## Readings and checks -/

namespace Reading.Alike

variable {α : Type} {reading other : Reading α}

theorem refl (reading : Reading α) : reading.Alike reading := by
  cases reading with
  | absent => exact .absent
  | null => exact .null
  | invalid raw expected => exact .invalid raw raw expected
  | value v raw => exact .value v raw raw

theorem value?_eq (h : reading.Alike other) : reading.value? = other.value? := by
  cases h <;> rfl

theorem patch?_eq (h : reading.Alike other) : reading.patch? = other.patch? := by
  cases h <;> rfl

theorem isAbsent_eq (h : reading.Alike other) : reading.isAbsent = other.isAbsent := by
  cases h <;> rfl

theorem isMissing_eq (h : reading.Alike other) : reading.isMissing = other.isMissing := by
  cases h <;> rfl

end Reading.Alike

namespace Check

variable {α : Type}

@[simp]
theorem ignoresRaw_notNull : IgnoresRaw (notNull : Check α) :=
  fun _ _ h ↦ by rw [notNull, notNull, h.isMissing_eq]

@[simp]
theorem ignoresRaw_ignoreIfNull : IgnoresRaw (ignoreIfNull : Check α) :=
  fun _ _ h ↦ by rw [ignoreIfNull, ignoreIfNull, h.isMissing_eq]

@[simp]
theorem ignoresRaw_satisfies (test : α → Bool) (constraint : Constraint) :
    IgnoresRaw (satisfies test constraint) :=
  fun _ _ h ↦ by cases h <;> rfl

@[simp]
theorem ignoresRaw_wellFormed : IgnoresRaw (wellFormed : Check α) :=
  fun _ _ h ↦ by cases h <;> rfl

@[simp]
theorem ignoresRaw_nonempty (isEmpty : α → Bool) : IgnoresRaw (nonempty isEmpty) :=
  fun _ _ h ↦ by cases h <;> rfl

end Check

/-- A chain finds the same in readings that are alike. -/
theorem Violation.pairs_ofChecks_eq {α : Type} {name : String} {reading other : Reading α}
    (h : reading.Alike other) {checks : List (Check α)}
    (hchecks : ∀ check ∈ checks, check.IgnoresRaw) :
    (ofChecks name reading checks).map pair = (ofChecks name other checks).map pair := by
  induction checks with
  | nil => rfl
  | cons check checks ih =>
    rw [List.forall_mem_cons] at hchecks
    rw [ofChecks_cons, ofChecks_cons, hchecks.1 h]
    cases check other with
    | pass => exact ih hchecks.2
    | stop => rfl
    | fail constraint => rfl

namespace Request

variable {policy : RequestPolicy} {mode : Mode} {r r' : Request}

theorem pairs_checkIf_eq {applies applies' : Bool} {violations violations' : List Violation}
    (happlies : applies = applies')
    (h : violations.map Violation.pair = violations'.map Violation.pair) :
    (checkIf applies violations).map Violation.pair =
      (checkIf applies' violations').map Violation.pair := by
  subst happlies
  cases applies with
  | true => exact h
  | false => rfl

/-! ## Sections -/

namespace Alike

theorem has_eq (h : r.Alike r') (name : String) : r.has name = r'.has name := by
  have habsent := (h.text name).isAbsent_eq
  rw [isAbsent_text, isAbsent_text] at habsent
  exact Bool.not_inj habsent

theorem isChecked_eq (h : r.Alike r') (name : String) :
    r.isChecked mode name = r'.isChecked mode name := by
  rw [isChecked, isChecked, h.has_eq]

theorem isSet_eq (h : r.Alike r') (name : String) : r.isSet name = r'.isSet name := by
  rw [isSet, isSet, (h.boolean name).value?_eq]

theorem pairs_flagViolations (h : r.Alike r') (name : String) :
    (r.flagViolations name).map Violation.pair = (r'.flagViolations name).map Violation.pair :=
  pairs_checkIf_eq (h.has_eq name) (Violation.pairs_ofChecks_eq (h.boolean name) (by simp))

theorem dateViolations_eq (h : r.Alike r') {name : String} (hname : name ∈ Parameter.dates) :
    r.dateViolations name = r'.dateViolations name := by
  rw [dateViolations, dateViolations, h.date name hname]

theorem pairs_rescheduleViolations (h : r.Alike r') :
    r.rescheduleViolations.map Violation.pair = r'.rescheduleViolations.map Violation.pair := by
  have hpresent : r.dateViolations Parameter.presentMeetingDate = _ :=
    h.dateViolations_eq (by decide)
  have hnew : r.dateViolations Parameter.newMeetingDate = _ := h.dateViolations_eq (by decide)
  simp only [rescheduleViolations, List.map_append, List.flatMap_cons, List.flatMap_nil,
    h.pairs_flagViolations, h.isSet_eq, h.has_eq, hpresent, hnew]

theorem pairs_titleViolations (h : r.Alike r') :
    (r.titleViolations policy mode).map Violation.pair =
      (r'.titleViolations policy mode).map Violation.pair :=
  pairs_checkIf_eq (h.isChecked_eq _)
    (Violation.pairs_ofChecks_eq (h.text _) (by simp [Check.notBlank, Check.maxLength]))

theorem pairs_optionalTextViolations (h : r.Alike r') (name : String) (max : Nat) :
    (r.optionalTextViolations name max).map Violation.pair =
      (r'.optionalTextViolations name max).map Violation.pair :=
  pairs_checkIf_eq (h.has_eq name)
    (Violation.pairs_ofChecks_eq (h.text name) (by simp [Check.maxLength]))

theorem dateRangeViolations_eq (h : r.Alike r') :
    r.dateRangeViolations mode = r'.dateRangeViolations mode := by
  have hstart := h.date Parameter.startDate (by decide)
  have hend := h.date Parameter.endDate (by decide)
  simp only [dateRangeViolations, dateViolations, orderViolations, h.isChecked_eq, h.has_eq, hstart,
    hend]

theorem pairs_durationViolations (h : r.Alike r') :
    r.durationViolations.map Violation.pair = r'.durationViolations.map Violation.pair :=
  pairs_checkIf_eq (h.has_eq _) (Violation.pairs_ofChecks_eq (h.integer _) (by simp))

theorem pairs_typeViolations (h : r.Alike r') :
    (r.typeViolations mode).map Violation.pair = (r'.typeViolations mode).map Violation.pair :=
  pairs_checkIf_eq (h.isChecked_eq _)
    (Violation.pairs_ofChecks_eq (h.integer _) (by simp [Check.inRangeOf, Check.inRange]))

theorem pairs_frequencyViolations (h : r.Alike r') :
    r.frequencyViolations.map Violation.pair = r'.frequencyViolations.map Violation.pair := by
  unfold frequencyViolations
  rw [List.map_append, List.map_append]
  congr 1
  · exact Violation.pairs_ofChecks_eq (h.integer _) (by simp [Check.inRangeOf, Check.inRange])
  · exact pairs_checkIf_eq (h.has_eq _)
      (Violation.pairs_ofChecks_eq (h.integer _) (by simp [Check.positive, Check.inRange]))

theorem pairs_weeklyViolations (h : r.Alike r') :
    (r.weeklyViolations mode).map Violation.pair = (r'.weeklyViolations mode).map Violation.pair :=
  pairs_checkIf_eq (h.isChecked_eq _)
    (Violation.pairs_ofChecks_eq (h.integers _) (by simp [Check.notEmpty, Check.eachInRangeOf]))

theorem pairs_exclusionViolations (h : r.Alike r') :
    r.exclusionViolations.map Violation.pair = r'.exclusionViolations.map Violation.pair := by
  have hnth := (h.integer Parameter.repeatsOnNthDayOfMonth).isMissing_eq
  have hlast := (h.integer Parameter.repeatsOnLastWeekdayOfMonth).isMissing_eq
  exact pairs_checkIf_eq (by rw [hnth, hlast]) rfl

theorem pairs_monthlyViolations (h : r.Alike r') :
    r.monthlyViolations.map Violation.pair = r'.monthlyViolations.map Violation.pair := by
  have hplace := (h.integer Parameter.repeatsOnNthDayOfMonth).value?_eq
  have hrange (name : String) (choice : Type) [Coded choice] (first : Check Int)
      (hfirst : first.IgnoresRaw) :
      (Violation.ofChecks name (r.integer name) [first, Check.inRangeOf choice]).map
          Violation.pair =
        (Violation.ofChecks name (r'.integer name) [first, Check.inRangeOf choice]).map
          Violation.pair :=
    Violation.pairs_ofChecks_eq (h.integer name) (by simp [hfirst, Check.inRangeOf, Check.inRange])
  unfold monthlyViolations
  simp only [List.map_append]
  rw [hrange _ _ _ Check.ignoresRaw_ignoreIfNull, hrange _ _ _ Check.ignoresRaw_ignoreIfNull,
    h.pairs_exclusionViolations,
    pairs_checkIf_eq (by rw [hplace]) (hrange _ _ _ Check.ignoresRaw_notNull)]

theorem pairs_repeatDayViolations (h : r.Alike r') :
    (r.repeatDayViolations mode).map Violation.pair =
      (r'.repeatDayViolations mode).map Violation.pair := by
  unfold repeatDayViolations
  rw [(h.integer Parameter.frequency).value?_eq]
  split
  · exact h.pairs_weeklyViolations
  · exact h.pairs_monthlyViolations
  · rfl

theorem pairs_repeatViolations (h : r.Alike r') :
    (r.repeatViolations mode).map Violation.pair =
      (r'.repeatViolations mode).map Violation.pair := by
  have hdays : (r.frequencyViolations ++ r.repeatDayViolations mode).map Violation.pair =
      (r'.frequencyViolations ++ r'.repeatDayViolations mode).map Violation.pair := by
    rw [List.map_append, List.map_append, h.pairs_frequencyViolations, h.pairs_repeatDayViolations]
  unfold repeatViolations
  rw [List.map_append, List.map_append, h.pairs_flagViolations,
    pairs_checkIf_eq (h.isSet_eq _) hdays]

theorem pairs_remindByViolations (h : r.Alike r') :
    r.remindByViolations.map Violation.pair = r'.remindByViolations.map Violation.pair :=
  pairs_checkIf_eq (h.has_eq _)
    (Violation.pairs_ofChecks_eq (h.integer _) (by simp [Check.inRangeOf, Check.inRange]))

theorem pairs_offsetViolations (h : r.Alike r') (name : String) :
    (r.offsetViolations policy mode name).map Violation.pair =
      (r'.offsetViolations policy mode name).map Violation.pair := by
  refine pairs_checkIf_eq (h.has_eq name) (Violation.pairs_ofChecks_eq (h.integer name) ?_)
  unfold offsetChecks
  split
  · simp [Check.positive]
  · simp

theorem meetingTimeViolations_eq (h : r.Alike r') :
    r.meetingTimeViolations = r'.meetingTimeViolations := by
  rw [meetingTimeViolations, meetingTimeViolations, h.has_eq, h.meetingTime]

/-- The same constraints are broken under the same parameters. -/
theorem pairs_violations (h : r.Alike r') :
    (r.violations policy mode).map Violation.pair =
      (r'.violations policy mode).map Violation.pair := by
  unfold violations
  simp only [List.map_append, h.pairs_titleViolations, h.pairs_optionalTextViolations,
    h.dateRangeViolations_eq, h.pairs_durationViolations, h.pairs_typeViolations,
    h.pairs_repeatViolations, h.pairs_remindByViolations, h.pairs_offsetViolations,
    h.meetingTimeViolations_eq, pairs_checkIf_eq rfl h.pairs_rescheduleViolations]

/-! ## Events and updates -/

theorem choice?_eq (h : r.Alike r') (α : Type) [Coded α] (name : String) :
    r.choice? α name = r'.choice? α name := by
  rw [choice?, choice?, (h.integer name).value?_eq]

theorem recurrencePatch_eq (h : r.Alike r') : r.recurrencePatch = r'.recurrencePatch := by
  have hinteger (name : String) : (r.integer name).value? = (r'.integer name).value? :=
    (h.integer name).value?_eq
  have hintegers (name : String) : (r.integers name).value? = (r'.integers name).value? :=
    (h.integers name).value?_eq
  simp only [recurrencePatch, frequency?, interval?, weekdays?, monthlyDay?, hinteger, hintegers]

theorem recurrence?_eq (h : r.Alike r') (start : Date) :
    r.recurrence? start = r'.recurrence? start := by
  simp only [recurrence?, recurrence, h.isSet_eq, h.recurrencePatch_eq]

theorem reschedule?_eq (h : r.Alike r') : r.reschedule? = r'.reschedule? := by
  have hpresent := h.date Parameter.presentMeetingDate (by decide)
  have hnew := h.date Parameter.newMeetingDate (by decide)
  simp only [reschedule?, h.isSet_eq, hpresent, hnew]

theorem toUpdate_eq (h : r.Alike r') : r.toUpdate = r'.toUpdate := by
  have hstart := h.date Parameter.startDate (by decide)
  have hend := h.date Parameter.endDate (by decide)
  have htitle := (h.text Parameter.title).value?_eq
  have htext (name : String) : (r.text name).patch? = (r'.text name).patch? :=
    (h.text name).patch?_eq
  have hinteger (name : String) : (r.integer name).patch? = (r'.integer name).patch? :=
    (h.integer name).patch?_eq
  have hrepeating := (h.boolean Parameter.repeating).value?_eq
  simp only [toUpdate, repeatUpdate?, h.choice?_eq, h.recurrencePatch_eq, h.reschedule?_eq,
    h.meetingTime, hstart, hend, htitle, htext, hinteger, hrepeating]

end Alike

theorem ReadAlike.required {α : Type} {reading other : Reading α} (h : reading.Alike other)
    (name : String) : ReadAlike (required name reading) (Request.required name other) := by
  cases h with
  | absent => exact .error rfl
  | null => exact .error rfl
  | invalid raw raw' expected => exact .error rfl
  | value v raw raw' => exact .ok v

theorem ReadAlike.pairs_failure?_eq {α : Type} {result result' : Except Violation α}
    (h : ReadAlike result result') :
    (failure? result).map Violation.pair = (failure? result').map Violation.pair := by
  cases h with
  | ok v => rfl
  | error hpair => exact congrArg (fun pair ↦ [pair]) hpair

theorem Alike.readAlike_entityType (h : r.Alike r') : ReadAlike r.entityType r'.entityType := by
  have hcode := ReadAlike.required (h.integer Parameter.typeId) Parameter.typeId
  unfold entityType
  generalize Request.required Parameter.typeId (r.integer Parameter.typeId) = code at hcode ⊢
  generalize Request.required Parameter.typeId (r'.integer Parameter.typeId) = code' at hcode ⊢
  cases hcode with
  | ok code =>
    change ReadAlike (choice EntityType Parameter.typeId code)
      (choice EntityType Parameter.typeId code)
    cases choice EntityType Parameter.typeId code with
    | ok v => exact .ok v
    | error v => exact .error rfl
  | error hpair => exact .error hpair

/-- The same event is described, or reading fails for the same reasons. -/
theorem Alike.sameOutcome_toEvent (h : r.Alike r') :
    CalendarError.SameOutcome r.toEvent r'.toEvent := by
  have htext (name : String) : (r.text name).value? = (r'.text name).value? :=
    (h.text name).value?_eq
  have hinteger (name : String) : (r.integer name).value? = (r'.integer name).value? :=
    (h.integer name).value?_eq
  have hstart := h.date Parameter.startDate (by decide)
  have hend := h.date Parameter.endDate (by decide)
  have htitle := ReadAlike.required (h.text Parameter.title) Parameter.title
  have htype := h.readAlike_entityType
  unfold toEvent
  simp only [h.choice?_eq, h.recurrence?_eq, h.meetingTime, hstart, hend, htext, hinteger]
  generalize Request.required Parameter.title (r.text Parameter.title) = title at htitle ⊢
  generalize Request.required Parameter.title (r'.text Parameter.title) = title' at htitle ⊢
  generalize r.entityType = entityType at htype ⊢
  generalize r'.entityType = entityType' at htype ⊢
  generalize Request.required Parameter.startDate (r'.date Parameter.startDate) = start
  generalize r'.choice? RemindBy Parameter.remindById = remindBy
  have hpairs : (Report.calendar (failure? title ++ failure? start ++ failure? entityType ++
        failure? remindBy)).pairs =
      (Report.calendar (failure? title' ++ failure? start ++ failure? entityType' ++
        failure? remindBy)).pairs := by
    simp only [Report.pairs, Report.calendar, List.map_append, htitle.pairs_failure?_eq,
      htype.pairs_failure?_eq]
  -- As soon as one of the four parts fails, the outcome is the report on all four.
  cases htitle with
  | error _ => exact .rejected hpairs
  | ok title =>
    cases start with
    | error _ => exact .rejected hpairs
    | ok start =>
      cases htype with
      | error _ => exact .rejected hpairs
      | ok entityType =>
        cases remindBy with
        | error _ => exact .rejected hpairs
        | ok remindBy => exact .same _

end Request

end MeetingCalendar
