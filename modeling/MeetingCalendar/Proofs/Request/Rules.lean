import MeetingCalendar.Proofs.Coded
import MeetingCalendar.Proofs.Request.Validity

/-!
# The rules of requests in full

The list of rules as a client has to know it: every parameter with the state that it may be in
and the range that its value may have, written out in numbers.  Whether a parameter may be left out
of a request, and whether it may be null, differs from rule to rule.  The list does not mention
checks, their order or where they stop; `Request.validate_eq_ok_iff_keepsRules` shows that exactly
the requests that keep it are accepted.
-/

namespace MeetingCalendar

namespace Reading

variable {α : Type}

/-- The parameter has a value of its kind with a property. -/
def ReadsAs (reading : Reading α) (P : α → Prop) : Prop :=
  ∃ v raw, reading = .value v raw ∧ P v

/-- The parameter may be left out, but not be null. -/
def AbsentOr (reading : Reading α) (P : α → Prop) : Prop :=
  reading = .absent ∨ reading.ReadsAs P

/-- The parameter is left out or null. -/
def Missing (reading : Reading α) : Prop :=
  reading = .absent ∨ reading = .null

/-- The parameter may be left out or be null. -/
def MissingOr (reading : Reading α) (P : α → Prop) : Prop :=
  reading.Missing ∨ reading.ReadsAs P

/-- The parameter may be left out of an update only. -/
def MandatoryFor (mode : Mode) (reading : Reading α) (P : α → Prop) : Prop :=
  (mode = .update ∧ reading = .absent) ∨ reading.ReadsAs P

end Reading

namespace Request

/-- The rules for the day of the month: a place from 1 to 4 with a weekday, or a last weekday. -/
structure KeepsMonthlyRules (r : Request) : Prop where
  nth : (r.integer Parameter.repeatsOnNthDayOfMonth).MissingOr fun n ↦ 1 ≤ n ∧ n ≤ 4
  last : (r.integer Parameter.repeatsOnLastWeekdayOfMonth).MissingOr fun n ↦ 1 ≤ n ∧ n ≤ 7
  exclusive : (r.integer Parameter.repeatsOnNthDayOfMonth).Missing ∨
    (r.integer Parameter.repeatsOnLastWeekdayOfMonth).Missing
  weekday : (r.integer Parameter.repeatsOnNthDayOfMonth).ReadsAs (fun n ↦ 1 ≤ n ∧ n ≤ 4) →
    (r.integer Parameter.repeatsOnDay).ReadsAs fun day ↦ 1 ≤ day ∧ day ≤ 7

/-- The rules for repeating: 2 is the code of the weeks, 3 that of the months. -/
structure KeepsRepeatRules (mode : Mode) (r : Request) : Prop where
  frequency : (r.integer Parameter.frequency).ReadsAs fun n ↦ 1 ≤ n ∧ n ≤ 4
  interval : (r.integer Parameter.interval).AbsentOr fun n ↦ 1 ≤ n ∧ n ≤ 65535
  weekly : (r.integer Parameter.frequency).ReadsAs (· = 2) →
    (r.integers Parameter.repeatsOnDay).MandatoryFor mode fun days ↦
      days ≠ [] ∧ ∀ day ∈ days, 1 ≤ day ∧ day ≤ 7
  monthly : (r.integer Parameter.frequency).ReadsAs (· = 3) → r.KeepsMonthlyRules

/-- The rules for the move of a meeting: with the flag set, both dates. -/
structure KeepsRescheduleRules (r : Request) : Prop where
  flag : (r.boolean Parameter.rescheduleBasedOnMeetingDates).AbsentOr fun _ ↦ True
  dates : ∀ name ∈ [Parameter.presentMeetingDate, Parameter.newMeetingDate],
    (r.date name).ReadsAs (fun _ ↦ True) ∨ r.date name = .absent ∧
      ¬(r.boolean Parameter.rescheduleBasedOnMeetingDates).ReadsAs (· = true)

structure KeepsRules (policy : RequestPolicy) (mode : Mode) (r : Request) : Prop where
  title : (r.text Parameter.title).MandatoryFor mode fun s ↦
    Text.isBlank s = false ∧ s.length ≤ policy.titleMaxLength
  description : (r.text Parameter.description).MissingOr fun s ↦
    s.length ≤ policy.descriptionMaxLength
  location : (r.text Parameter.location).MissingOr fun s ↦ s.length ≤ policy.locationMaxLength
  startDate : (r.date Parameter.startDate).MandatoryFor mode fun _ ↦ True
  endDate : (r.date Parameter.endDate).AbsentOr fun stop ↦
    ∀ start raw, r.date Parameter.startDate = .value start raw → ¬stop < start
  duration : (r.integer Parameter.duration).MissingOr fun _ ↦ True
  typeId : (r.integer Parameter.typeId).MandatoryFor mode fun n ↦ 1 ≤ n ∧ n ≤ 7
  repeating : (r.boolean Parameter.repeating).AbsentOr fun _ ↦ True
  repeats : (r.boolean Parameter.repeating).ReadsAs (· = true) → r.KeepsRepeatRules mode
  remindById : (r.integer Parameter.remindById).MissingOr fun n ↦ 1 ≤ n ∧ n ≤ 2
  offset : ∀ name ∈ [Parameter.firstReminderOffset, Parameter.secondReminderOffset],
    (r.integer name).MissingOr fun n ↦
      mode = .create ∨ policy.offsetsOnUpdate = .positive → 0 < n
  meetingTime : (r.time Parameter.meetingTime).MissingOr fun _ ↦ True
  reschedule : mode = .update → r.KeepsRescheduleRules

end Request

/-! ## States of a parameter -/

namespace Reading

variable {α : Type} {reading : Reading α} {P : α → Prop}

theorem readsAs_iff : reading.ReadsAs P ↔ ∃ v, reading.value? = some v ∧ P v := by
  cases reading <;> simp [ReadsAs, value?]

theorem missing_iff : reading.Missing ↔ reading.isMissing = true :=
  isMissing_iff.symm

theorem missingOr_iff :
    reading.MissingOr P ↔ reading.isMissing = true ∨ ∃ v, reading.value? = some v ∧ P v := by
  rw [MissingOr, readsAs_iff, missing_iff]

theorem readsAs_code_iff (α : Type) [Coded α] (reading : Reading Int) :
    (reading.ReadsAs fun n ↦ Coded.minCode α ≤ n ∧ n ≤ Coded.maxCode α) ↔
      ∃ n, reading.value? = some n ∧ Coded.accepts α n = true := by
  rw [readsAs_iff]
  simp only [Coded.accepts_iff]

theorem missingOr_code_iff (α : Type) [Coded α] (reading : Reading Int) :
    (reading.MissingOr fun n ↦ Coded.minCode α ≤ n ∧ n ≤ Coded.maxCode α) ↔
      reading.isMissing = true ∨
        ∃ n, reading.value? = some n ∧ Coded.accepts α n = true := by
  rw [MissingOr, missing_iff, readsAs_code_iff]

theorem isAbsent_iff : reading.isAbsent = true ↔ reading = .absent := by
  cases reading <;> simp [isAbsent]

end Reading

namespace Request

variable {policy : RequestPolicy} {mode : Mode} {r : Request} {name : String} {α : Type}
  {reading : Reading α} {P : α → Prop}

theorem isAbsent_boolean (r : Request) (name : String) :
    (r.boolean name).isAbsent = !r.has name := by
  rw [boolean, Reading.isAbsent_of, has, Option.not_isSome]

theorem has_eq_false_iff (habsent : reading.isAbsent = !r.has name) :
    r.has name = false ↔ reading = .absent := by
  rw [← Reading.isAbsent_iff, habsent, Bool.not_eq_true']

/-- What is checked only if it is there may be left out. -/
theorem absentOr_iff (habsent : reading.isAbsent = !r.has name) :
    reading.AbsentOr P ↔ (r.has name = true → ∃ v, reading.value? = some v ∧ P v) := by
  rw [Reading.AbsentOr, Reading.readsAs_iff, ← has_eq_false_iff habsent]
  cases r.has name <;> simp

/-- What is checked on creation, and else only if it is there, may be left out of an update. -/
theorem mandatoryFor_iff (habsent : reading.isAbsent = !r.has name) :
    reading.MandatoryFor mode P ↔
      (r.isChecked mode name = true → ∃ v, reading.value? = some v ∧ P v) := by
  rw [Reading.MandatoryFor, Reading.readsAs_iff, ← has_eq_false_iff habsent, isChecked]
  cases mode <;> cases r.has name <;> simp

/-! ## The rules and validity -/

theorem ofCode?_eq_some_iff {n : Int} {frequency : Frequency} :
    Coded.ofCode? n = some frequency ↔ n = Coded.code frequency := by
  constructor
  · intro h
    simp only [Coded.ofCode?] at h
    split at h
    all_goals cases h
    all_goals rfl
  · rintro rfl
    cases frequency <;> rfl

theorem codedFrequency?_eq_some_iff {frequency : Frequency} :
    r.codedFrequency? = some frequency ↔
      (r.integer Parameter.frequency).ReadsAs (· = Coded.code frequency) := by
  rw [codedFrequency?, Option.bind_eq_some_iff, Reading.readsAs_iff]
  simp only [ofCode?_eq_some_iff]

theorem isSet_iff_readsAs :
    r.isSet name = true ↔ (r.boolean name).ReadsAs (· = true) := by
  rw [isSet, beq_iff_eq, Reading.readsAs_iff]
  simp only [exists_eq_right]

theorem keepsMonthlyRules_iff : r.KeepsMonthlyRules ↔ r.ValidMonthlyDay := by
  have hnth := Reading.missingOr_code_iff Ordinal (r.integer Parameter.repeatsOnNthDayOfMonth)
  have hlast := Reading.missingOr_code_iff Weekday
    (r.integer Parameter.repeatsOnLastWeekdayOfMonth)
  have hplace := Reading.readsAs_code_iff Ordinal (r.integer Parameter.repeatsOnNthDayOfMonth)
  have hweekday := Reading.readsAs_code_iff Weekday (r.integer Parameter.repeatsOnDay)
  constructor
  · intro h
    refine ⟨hnth.mp h.nth, hlast.mp h.last,
      h.exclusive.imp Reading.missing_iff.mp Reading.missing_iff.mp, fun n hn haccepts ↦ ?_⟩
    exact hweekday.mp (h.weekday (hplace.mpr ⟨n, hn, haccepts⟩))
  · intro h
    refine ⟨hnth.mpr h.nth, hlast.mpr h.last,
      h.exclusive.imp Reading.missing_iff.mpr Reading.missing_iff.mpr, fun hn ↦ ?_⟩
    obtain ⟨n, hn, haccepts⟩ := hplace.mp hn
    exact hweekday.mpr (h.weekday n hn haccepts)

theorem keepsRepeatRules_iff : r.KeepsRepeatRules mode ↔ r.ValidRecurrence mode := by
  have hfrequency := Reading.readsAs_code_iff Frequency (r.integer Parameter.frequency)
  have hinterval : ((r.integer Parameter.interval).AbsentOr fun n ↦ 1 ≤ n ∧ n ≤ 65535) ↔ _ :=
    absentOr_iff (r.isAbsent_integer Parameter.interval)
  have hweekly : ((r.integers Parameter.repeatsOnDay).MandatoryFor mode fun days ↦
      days ≠ [] ∧ ∀ day ∈ days, Coded.minCode Weekday ≤ day ∧ day ≤ Coded.maxCode Weekday) ↔
        (r.isChecked mode Parameter.repeatsOnDay = true →
          ∃ days, (r.integers Parameter.repeatsOnDay).value? = some days ∧ days ≠ [] ∧
            ∀ day ∈ days, Coded.accepts Weekday day = true) := by
    rw [mandatoryFor_iff (r.isAbsent_integers _)]
    simp only [Coded.accepts_iff]
  constructor
  · intro h
    refine ⟨hfrequency.mp h.frequency, hinterval.mp h.interval, fun hcoded ↦ ?_, fun hcoded ↦ ?_⟩
    · exact hweekly.mp (h.weekly (codedFrequency?_eq_some_iff.mp hcoded))
    · exact keepsMonthlyRules_iff.mp (h.monthly (codedFrequency?_eq_some_iff.mp hcoded))
  · intro h
    refine ⟨hfrequency.mpr h.frequency, hinterval.mpr h.interval, fun hcode ↦ ?_, fun hcode ↦ ?_⟩
    · exact hweekly.mpr (h.weekly (codedFrequency?_eq_some_iff.mpr hcode))
    · exact keepsMonthlyRules_iff.mpr (h.monthly (codedFrequency?_eq_some_iff.mpr hcode))

theorem keepsRescheduleRules_iff : r.KeepsRescheduleRules ↔ r.ValidReschedule := by
  have hflag : ((r.boolean Parameter.rescheduleBasedOnMeetingDates).AbsentOr fun _ ↦ True) ↔ _ :=
    absentOr_iff (r.isAbsent_boolean Parameter.rescheduleBasedOnMeetingDates)
  have hdate (name : String) : ((r.date name).ReadsAs (fun _ ↦ True) ∨ r.date name = .absent ∧
      ¬(r.boolean Parameter.rescheduleBasedOnMeetingDates).ReadsAs (· = true)) ↔
        (r.isSet Parameter.rescheduleBasedOnMeetingDates = true ∨ r.has name = true →
          ∃ d, (r.date name).value? = some d) := by
    rw [← isSet_iff_readsAs, Reading.readsAs_iff, ← has_eq_false_iff (r.isAbsent_date name)]
    simp only [and_true]
    cases r.isSet Parameter.rescheduleBasedOnMeetingDates <;> cases r.has name <;> simp
  simp only [and_true] at hflag
  constructor
  · rintro ⟨h, hdates⟩
    exact ⟨hflag.mp h, fun name hname ↦ (hdate name).mp (hdates name hname)⟩
  · rintro ⟨h, hdates⟩
    exact ⟨hflag.mpr h, fun name hname ↦ (hdate name).mpr (hdates name hname)⟩

theorem endDate_absentOr_iff : ((r.date Parameter.endDate).AbsentOr fun stop ↦
    ∀ start raw, r.date Parameter.startDate = .value start raw → ¬stop < start) ↔
      (r.has Parameter.endDate = true →
        ∃ stop, (r.date Parameter.endDate).value? = some stop ∧
          ∀ start, (r.date Parameter.startDate).value? = some start → start ≤ stop) := by
  rw [absentOr_iff (r.isAbsent_date _)]
  simp only [Reading.value?_eq_some_iff, Date.not_lt, forall_exists_index]

theorem typeId_mandatoryFor_iff :
    ((r.integer Parameter.typeId).MandatoryFor mode fun n ↦
      Coded.minCode EntityType ≤ n ∧ n ≤ Coded.maxCode EntityType) ↔
      (r.isChecked mode Parameter.typeId = true →
        ∃ n, (r.integer Parameter.typeId).value? = some n ∧
          Coded.accepts EntityType n = true) := by
  rw [mandatoryFor_iff (r.isAbsent_integer _)]
  simp only [Coded.accepts_iff]

theorem keepsRules_iff : r.KeepsRules policy mode ↔ r.Valid policy mode := by
  have hstart : ((r.date Parameter.startDate).MandatoryFor mode fun _ ↦ True) ↔ _ :=
    mandatoryFor_iff (r.isAbsent_date Parameter.startDate)
  have hduration : ((r.integer Parameter.duration).MissingOr fun _ ↦ True) ↔ _ :=
    Reading.missingOr_iff
  have hrepeating : ((r.boolean Parameter.repeating).AbsentOr fun _ ↦ True) ↔ _ :=
    absentOr_iff (r.isAbsent_boolean Parameter.repeating)
  have htime : ((r.time Parameter.meetingTime).MissingOr fun _ ↦ True) ↔ _ :=
    Reading.missingOr_iff
  have hremind := Reading.missingOr_code_iff RemindBy (r.integer Parameter.remindById)
  simp only [and_true] at hstart hduration hrepeating htime
  constructor
  · intro h
    constructor
    case reschedule => exact fun hmode ↦ keepsRescheduleRules_iff.mp (h.reschedule hmode)
    case title => exact (mandatoryFor_iff (r.isAbsent_text _)).mp h.title
    case description => exact Reading.missingOr_iff.mp h.description
    case location => exact Reading.missingOr_iff.mp h.location
    case startDate => exact hstart.mp h.startDate
    case endDate => exact endDate_absentOr_iff.mp h.endDate
    case duration => exact hduration.mp h.duration
    case entityType => exact typeId_mandatoryFor_iff.mp h.typeId
    case repeating => exact hrepeating.mp h.repeating
    case recurrence =>
      exact fun hset ↦ keepsRepeatRules_iff.mp (h.repeats (isSet_iff_readsAs.mp hset))
    case remindBy => exact hremind.mp h.remindById
    case offset => exact fun name hname ↦ Reading.missingOr_iff.mp (h.offset name hname)
    case meetingTime => exact htime.mp h.meetingTime
  · intro h
    constructor
    case reschedule => exact fun hmode ↦ keepsRescheduleRules_iff.mpr (h.reschedule hmode)
    case title => exact (mandatoryFor_iff (r.isAbsent_text _)).mpr h.title
    case description => exact Reading.missingOr_iff.mpr h.description
    case location => exact Reading.missingOr_iff.mpr h.location
    case startDate => exact hstart.mpr h.startDate
    case endDate => exact endDate_absentOr_iff.mpr h.endDate
    case duration => exact hduration.mpr h.duration
    case typeId => exact typeId_mandatoryFor_iff.mpr h.entityType
    case repeating => exact hrepeating.mpr h.repeating
    case repeats =>
      exact fun hset ↦ keepsRepeatRules_iff.mpr (h.recurrence (isSet_iff_readsAs.mpr hset))
    case remindById => exact hremind.mpr h.remindBy
    case offset => exact fun name hname ↦ Reading.missingOr_iff.mpr (h.offset name hname)
    case meetingTime => exact htime.mpr h.meetingTime

/-- A request is accepted exactly when it keeps the rules. -/
theorem validate_eq_ok_iff_keepsRules (policy : RequestPolicy) (mode : Mode) (r : Request) :
    r.validate policy mode = .ok () ↔ r.KeepsRules policy mode := by
  rw [validate_eq_ok_iff, keepsRules_iff]

end Request

end MeetingCalendar
