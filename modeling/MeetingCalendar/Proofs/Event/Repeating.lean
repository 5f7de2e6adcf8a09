import MeetingCalendar.Proofs.Event.Agreement
import MeetingCalendar.Proofs.Event.Conformance

/-!
# Recurrences in the fields of requests

A recurrence can be written into a request: its frequency and weekdays by their codes, its interval
as a number.  Nothing gets lost on the way, neither when an event is created nor when one is
updated, whatever recurrence the event had before.  There is one exception.  The day of the month of
the first date is written by naming no day, and then an update keeps a weekday of the month that the
event has.
-/

namespace MeetingCalendar

namespace Request

/-- A request says on which days of its frequency an event repeats: weekdays in any order and any
number of times, a single one by itself, or the weekday of a month. -/
inductive WritesDays (r : Request) : Repeat → Prop where
  | daily : WritesDays r .daily
  | weekdays (days : List Weekday)
      (h : r.get? Parameter.repeatsOnDay =
        some (.array (days.map fun day ↦ .integer (Coded.code day)))) :
      WritesDays r (.weekly (.ofList days))
  | weekday (day : Weekday)
      (h : r.get? Parameter.repeatsOnDay = some (.integer (Coded.code day))) :
      WritesDays r (.weekly (.singleton day))
  | nth (ordinal : Ordinal) (day : Weekday)
      (hplace : r.get? Parameter.repeatsOnNthDayOfMonth = some (.integer (Coded.code ordinal)))
      (hday : r.get? Parameter.repeatsOnDay = some (.integer (Coded.code day)))
      (hlast : r.has Parameter.repeatsOnLastWeekdayOfMonth = false) :
      WritesDays r (.monthly (.nth ordinal day))
  | last (day : Weekday)
      (hplace : r.has Parameter.repeatsOnNthDayOfMonth = false)
      (hday : r.get? Parameter.repeatsOnLastWeekdayOfMonth = some (.integer (Coded.code day))) :
      WritesDays r (.monthly (.last day))
  | sameDay (hplace : r.has Parameter.repeatsOnNthDayOfMonth = false)
      (hlast : r.has Parameter.repeatsOnLastWeekdayOfMonth = false) :
      WritesDays r (.monthly .sameDay)
  | yearly : WritesDays r .yearly

/-- A request says how an event repeats.  An interval of one may be left out. -/
structure WritesRecurrence (r : Request) (s : Recurrence) : Prop where
  repeating : r.isSet Parameter.repeating = true
  frequency : r.get? Parameter.frequency = some (.integer (Coded.code s.frequency))
  interval : r.get? Parameter.interval = some (.integer s.interval) ∨
    r.has Parameter.interval = false ∧ s.interval = 1
  days : r.WritesDays s.pattern

variable {policy : RequestPolicy} {mode : Mode} {r : Request} {s : Recurrence}

/-! ## What the fields read as -/

theorem value?_integer_of_get? {name : String} {n : Int} (h : r.get? name = some (.integer n))
    (hpos : 0 ≤ n) (hle : n ≤ Recurrence.maxInterval) : (r.integer name).value? = some n := by
  have hmin : Text.minInt64 ≤ 0 := by decide
  have hmax : (Recurrence.maxInterval : Int) ≤ Text.maxInt64 := by decide
  have hint64 : Json.int64? (.integer n) = some n := by
    simp only [Json.int64?, Bool.and_eq_true, decide_eq_true_eq]
    exact if_pos (by omega)
  rw [integer, h]
  simp only [Reading.of, Json.asInteger, hint64, Parsed.ofOption]
  rfl

theorem get?_of_int64? {name : String} {n : Int} (h : (r.get? name).bind Json.int64? = some n) :
    r.get? name = some (.integer n) := by
  obtain ⟨value, hget, hint64⟩ := Option.bind_eq_some_iff.mp h
  cases value with
  | integer m =>
    obtain ⟨-, heq⟩ := Option.ite_none_right_eq_some.mp hint64
    rw [hget, Option.some.inj heq]
  | _ => cases hint64

theorem value?_code_of_get? {α : Type} [Coded α] {name : String} {v : α}
    (h : r.get? name = some (.integer (Coded.code v)))
    (haccepted : Coded.accepted? α (Coded.code v) = some v) (hmin : 0 ≤ Coded.minCode α)
    (hmax : Coded.maxCode α ≤ Recurrence.maxInterval) :
    (r.integer name).value? = some (Coded.code v) := by
  have hbounds := Coded.accepts_iff.mp (Coded.accepts_of_accepted? haccepted)
  exact value?_integer_of_get? h (Int.le_trans hmin hbounds.1) (Int.le_trans hbounds.2 hmax)

theorem value?_weekday_of_get? {name : String} {day : Weekday}
    (h : r.get? name = some (.integer (Coded.code day))) :
    (r.integer name).value? = some (Coded.code day) :=
  value?_code_of_get? h day.accepted?_code (by decide) (by decide)

theorem isMissing_of_has_eq_false {name : String} (h : r.has name = false) :
    (r.integer name).isMissing = true := by
  apply Reading.isMissing_of_isAbsent
  rw [isAbsent_integer, h]
  rfl

theorem value?_of_has_eq_false {name : String} (h : r.has name = false) :
    (r.integer name).value? = none :=
  Reading.value?_of_isMissing (isMissing_of_has_eq_false h)

theorem mapM_asInteger_code (days : List Weekday) :
    (days.map fun day ↦ Json.integer (Coded.code day)).mapM
        (fun item ↦ (Json.asInteger item).value?) =
      some (days.map Coded.code) := by
  induction days with
  | nil => rfl
  | cons day days ih =>
    have hday : (Json.asInteger (.integer (Coded.code day))).value? = some (Coded.code day) := by
      cases day <;> rfl
    simp [hday, ih]

theorem mapM_repeatChoice_code (name : String) (days : List Weekday) :
    (days.map Coded.code).mapM (repeatChoice Weekday name) = .ok days := by
  induction days with
  | nil => rfl
  | cons day days ih =>
    have hday : repeatChoice Weekday name (Coded.code day) = .ok day :=
      repeatChoice_eq_ok_iff.mpr day.accepted?_code
    simp only [List.map_cons, List.mapM_cons, Except.bind_eq_ok_iff, Except.pure_eq_ok_iff]
    exact ⟨day, hday, days, ih, rfl⟩

/-- Either way of writing weekdays reads as a list of codes. -/
theorem WritesDays.exists_codes {days : WeekdaySet} (h : r.WritesDays (.weekly days)) :
    ∃ list : List Weekday, (r.integers Parameter.repeatsOnDay).value? =
      some (list.map Coded.code) ∧ days = .ofList list := by
  cases h with
  | weekdays list h =>
    refine ⟨list, ?_, rfl⟩
    rw [integers, h]
    simp only [Reading.of, Json.asIntegers, mapM_asInteger_code, Parsed.ofOption]
    rfl
  | weekday day h =>
    refine ⟨[day], ?_, rfl⟩
    rw [integers, h]
    cases day <;> rfl

/-! ## The parts of the recurrence -/

theorem WritesRecurrence.frequency?_eq (h : r.WritesRecurrence s) :
    r.frequency? = .ok (some s.frequency) := by
  have haccepted := s.frequency.accepted?_code
  rw [frequency?, value?_code_of_get? h.frequency haccepted (by decide) (by decide)]
  exact Except.map_eq_ok_iff.mpr ⟨_, repeatChoice_eq_ok_iff.mpr haccepted, rfl⟩

theorem interval?_of_get? (h : r.get? Parameter.interval = some (.integer s.interval)) :
    r.interval? = .ok (some s.interval) := by
  have hle := s.interval_le
  have hmax : Recurrence.maxInterval ≤ Text.maxNat32 := by decide
  rw [interval?, value?_integer_of_get? h (by omega) (by omega)]
  dsimp only
  rw [if_pos (by omega), Int.toNat_natCast]

theorem WritesRecurrence.get?_interval (h : r.WritesRecurrence s)
    (hhas : r.has Parameter.interval = true) :
    r.get? Parameter.interval = some (.integer s.interval) := by
  refine h.interval.resolve_right ?_
  rintro ⟨habsent, -⟩
  rw [hhas] at habsent
  cases habsent

theorem WritesRecurrence.exists_interval? (h : r.WritesRecurrence s) :
    ∃ interval, r.interval? = .ok interval ∧ interval.getD 1 = s.interval := by
  rcases h.interval with hget | ⟨habsent, hone⟩
  · exact ⟨some s.interval, interval?_of_get? hget, rfl⟩
  · exact ⟨none, by rw [interval?, value?_of_has_eq_false habsent], hone.symm⟩

theorem WritesDays.weekdays?_eq {days : WeekdaySet} (h : r.WritesDays (.weekly days)) :
    r.weekdays? = .ok (some days) := by
  obtain ⟨list, hcodes, rfl⟩ := h.exists_codes
  rw [weekdays?, hcodes]
  exact Except.bind_eq_ok_iff.mpr ⟨list, mapM_repeatChoice_code _ list, rfl⟩

/-- The day of the month of the first date is written by naming no day. -/
theorem WritesDays.monthlyDay?_eq {day : MonthlyDay} (h : r.WritesDays (.monthly day))
    (hfifth : ∀ weekday, day ≠ .nth .fifth weekday) :
    r.monthlyDay? = .ok ((some day).filter (· != .sameDay)) := by
  cases h with
  | nth ordinal day hplace hday hlast =>
    have hordinal : ordinal ≠ .fifth := by
      rintro rfl
      exact hfifth day rfl
    have haccepted := Ordinal.accepted?_code hordinal
    rw [monthlyDay?, value?_code_of_get? hplace haccepted (by decide) (by decide),
      value?_of_has_eq_false hlast, value?_weekday_of_get? hday]
    refine Except.bind_eq_ok_iff.mpr ⟨ordinal, repeatChoice_eq_ok_iff.mpr haccepted, ?_⟩
    exact Except.bind_eq_ok_iff.mpr ⟨day, repeatChoice_eq_ok_iff.mpr day.accepted?_code, rfl⟩
  | last day hplace hday =>
    rw [monthlyDay?, value?_of_has_eq_false hplace, value?_weekday_of_get? hday]
    exact Except.bind_eq_ok_iff.mpr ⟨day, repeatChoice_eq_ok_iff.mpr day.accepted?_code, rfl⟩
  | sameDay hplace hlast =>
    rw [monthlyDay?, value?_of_has_eq_false hplace, value?_of_has_eq_false hlast]
    rfl

/-- The fields are read as the parts of the recurrence, without anything else. -/
theorem WritesRecurrence.recurrencePatch_eq (h : r.WritesRecurrence s)
    (hfifth : s.pattern.AvoidsFifth) {interval : Option Nat}
    (hinterval : r.interval? = .ok interval) :
    r.recurrencePatch = .ok (s.toPatch interval) := by
  refine recurrencePatch_eq_ok_iff.mpr ⟨h.frequency?_eq, hinterval, ?_⟩
  obtain ⟨n, pattern, hpos, hle, hvalid⟩ := s
  have hdays : r.WritesDays pattern := h.days
  cases pattern with
  | daily => exact ⟨rfl, rfl⟩
  | weekly days => exact ⟨hdays.weekdays?_eq, rfl⟩
  | monthly day =>
    refine ⟨rfl, hdays.monthlyDay?_eq fun weekday hday ↦ hfifth weekday ?_⟩
    exact congrArg Repeat.monthly hday
  | yearly => exact ⟨rfl, rfl⟩

/-- A new event repeats as the request says. -/
theorem WritesRecurrence.recurrence_eq (h : r.WritesRecurrence s)
    (hfifth : s.pattern.AvoidsFifth) (start : Date) : r.recurrence start = .ok s := by
  obtain ⟨interval, hinterval, hone⟩ := h.exists_interval?
  have hpatch := h.recurrencePatch_eq hfifth hinterval
  have hpattern : (s.toPatch interval).pattern none start = s.pattern := by
    apply Recurrence.pattern_toPatch
    exact fun _ old hold ↦ by cases hold
  refine Except.bind_eq_ok_iff.mpr ⟨s.toPatch interval, hpatch, ?_⟩
  exact Recurrence.make_eq_ok_iff.mpr ⟨hone.symm, hpattern.symm⟩

/-! ## Validity -/

/-- A request that names no place may say which weekday is the last one. -/
theorem validMonthlyDay_of_last (hplace : r.has Parameter.repeatsOnNthDayOfMonth = false)
    (hlast : (r.integer Parameter.repeatsOnLastWeekdayOfMonth).isMissing = true ∨
      ∃ n, (r.integer Parameter.repeatsOnLastWeekdayOfMonth).value? = some n ∧
        Coded.accepts Weekday n = true) : r.ValidMonthlyDay := by
  have hmissing := isMissing_of_has_eq_false hplace
  refine ⟨.inl hmissing, hlast, .inl hmissing, fun n hn ↦ ?_⟩
  rw [value?_of_has_eq_false hplace] at hn
  cases hn

theorem WritesDays.validMonthlyDay {day : MonthlyDay} (h : r.WritesDays (.monthly day))
    (hfifth : ∀ weekday, day ≠ .nth .fifth weekday) : r.ValidMonthlyDay := by
  have haccepts (day : Weekday) : Coded.accepts Weekday (Coded.code day) = true :=
    Coded.accepts_of_accepted? day.accepted?_code
  cases h with
  | nth ordinal day hplace hday hlast =>
    have hordinal : ordinal ≠ .fifth := by
      rintro rfl
      exact hfifth day rfl
    have haccepted := Ordinal.accepted?_code hordinal
    have hvalue := value?_code_of_get? hplace haccepted (by decide) (by decide)
    have hmissing := isMissing_of_has_eq_false hlast
    have hplaceAccepts := Coded.accepts_of_accepted? haccepted
    exact ⟨.inr ⟨_, hvalue, hplaceAccepts⟩, .inl hmissing, .inr hmissing,
      fun _ _ _ ↦ ⟨_, value?_weekday_of_get? hday, haccepts day⟩⟩
  | last day hplace hday =>
    exact validMonthlyDay_of_last hplace (.inr ⟨_, value?_weekday_of_get? hday, haccepts day⟩)
  | sameDay hplace hlast =>
    exact validMonthlyDay_of_last hplace (.inl (isMissing_of_has_eq_false hlast))

theorem WritesDays.exists_accepted {days : WeekdaySet} (h : r.WritesDays (.weekly days))
    (hdays : (Repeat.weekly days).hasDays = true) :
    ∃ codes, (r.integers Parameter.repeatsOnDay).value? = some codes ∧ codes ≠ [] ∧
      ∀ code ∈ codes, Coded.accepts Weekday code = true := by
  obtain ⟨list, hcodes, rfl⟩ := h.exists_codes
  refine ⟨_, hcodes, ?_, ?_⟩
  · rw [Ne, List.map_eq_nil_iff]
    rintro rfl
    exact absurd hdays (by decide)
  · intro code hcode
    obtain ⟨day, -, rfl⟩ := List.mem_map.mp hcode
    exact Coded.accepts_of_accepted? day.accepted?_code

/-- What the request says of repeating keeps the rules. -/
theorem WritesRecurrence.valid (h : r.WritesRecurrence s) (hfifth : s.pattern.AvoidsFifth) :
    r.ValidRecurrence mode := by
  have hfrequency := s.frequency.accepted?_code
  have hvalue := value?_code_of_get? h.frequency hfrequency (by decide) (by decide)
  have hcoded : r.codedFrequency? = some s.frequency := by
    rw [codedFrequency?, hvalue]
    exact (Coded.accepted?_eq_some_iff.mp hfrequency).2
  obtain ⟨n, pattern, hpos, hle, hdays⟩ := s
  have hwrites : r.WritesDays pattern := h.days
  constructor
  case frequency => exact ⟨_, hvalue, Coded.accepts_of_accepted? hfrequency⟩
  case interval =>
    intro hhas
    exact ⟨n, value?_integer_of_get? (h.get?_interval hhas) (by omega) (by omega), by omega,
      by omega⟩
  case weekly =>
    intro hweekly _
    rw [hcoded] at hweekly
    cases pattern with
    | weekly days => exact hwrites.exists_accepted hdays
    | _ => cases hweekly
  case monthly =>
    intro hmonthly
    rw [hcoded] at hmonthly
    cases pattern with
    | monthly day =>
      refine hwrites.validMonthlyDay fun weekday hday ↦ hfifth weekday ?_
      exact congrArg Repeat.monthly hday
    | _ => cases hmonthly

theorem WritesRecurrence.valid_of_group (h : r.WritesRecurrence s)
    (hfifth : s.pattern.AvoidsFifth)
    (hgroup : ∀ v ∈ r.violations policy mode, v.parameter ∈ Parameter.repeatGroup) :
    r.Valid policy mode := by
  have hsection : (Parameter.repeatGroup, repeatViolations mode) ∈ sections policy mode := by
    simp [sections]
  have hrepeat : r.repeatViolations mode = [] :=
    repeatViolations_eq_nil_iff.mpr
      ⟨fun _ ↦ ⟨true, isSet_iff.mp h.repeating⟩, fun _ ↦ h.valid hfifth⟩
  exact violations_eq_nil_iff.mp (violations_eq_nil_of_mem_sections hsection hrepeat hgroup)

/-! ## Creating and updating -/

theorem WritesRecurrence.recurrence_of_toEvent {e : Event} (h : r.WritesRecurrence s)
    (hfifth : s.pattern.AvoidsFifth) (he : r.toEvent = .ok e) : e.recurrence = some s := by
  obtain ⟨hfound, -⟩ := recurrence?_of_toEvent he
  rw [recurrence?, if_pos h.repeating, h.recurrence_eq hfifth] at hfound
  exact (Except.ok.inj hfound).symm

/-- What an update makes of the recurrence of an event, with all that it may fall back on. -/
theorem WritesRecurrence.exists_recurrence_of_updated {e e' : Event} {u : EventUpdate}
    (h : r.WritesRecurrence s) (hfifth : s.pattern.AvoidsFifth)
    (hinterval : r.has Parameter.interval = true)
    (hstays : r.isSet Parameter.rescheduleBasedOnMeetingDates = false) (hu : r.toUpdate = .ok u)
    (hupdated : e.updated u = .ok e') :
    ∃ new start, e'.recurrence = some new ∧
      Recurrence.make s.interval
        ((s.toPatch (some s.interval)).pattern e.recurrence start) = .ok new := by
  have hchange : r.repeatUpdate? = .ok (some (.on (s.toPatch (some s.interval)))) := by
    rw [repeatUpdate?, isSet_iff.mp h.repeating]
    exact Except.map_eq_ok_iff.mpr
      ⟨_, h.recurrencePatch_eq hfifth (interval?_of_get? (h.get?_interval hinterval)), rfl⟩
  have hrepeating := Except.ok.inj ((repeatUpdate?_of_toUpdate hu).symm.trans hchange)
  have hreschedule : u.reschedule = none := by
    obtain ⟨entityType, remindBy, change, -, -, -, rfl⟩ := toUpdate_eq_ok_iff.mp hu
    exact if_neg (by rw [hstays]; exact Bool.false_ne_true)
  obtain ⟨-, next, hnext, hmoved, -⟩ := Event.updated_eq_ok_iff.mp hupdated
  -- Nothing is moved, so the event is done when its repeating is set.
  rw [hreschedule] at hmoved
  obtain rfl : next = e' := hmoved
  rw [hrepeating] at hnext
  obtain ⟨new, hnew, rfl⟩ := Except.map_eq_ok_iff.mp hnext
  exact ⟨new, _, rfl, Except.mapError_eq_ok_iff.mp hnew⟩

end Request

namespace RequestPolicy

variable {policy : RequestPolicy} {r : Request} {s : Recurrence} {body : String}

/-- Recurrences other than those on a fifth weekday can be written into requests without loss.  A
request to create an event that says how the event repeats and has no other faults makes an event
that repeats so.  A request to update an event without moving a meeting makes the event repeat so
whatever its recurrence was, only that the day of the month of the first date does not take the
place of a weekday of the month. -/
theorem recurrence_of_writesRecurrence (policy : RequestPolicy) (body : String) (r : Request)
    (s : Recurrence) (hrequest : policy.request body = .ok r) (hwrites : r.WritesRecurrence s)
    (hfifth : s.pattern.AvoidsFifth) :
    ((∀ v ∈ r.violations policy .create, v.parameter ∈ Parameter.repeatGroup) →
      ∃ e, policy.createEvent body = .ok e ∧ e.recurrence = some s) ∧
    (r.has Parameter.interval = true →
      r.isSet Parameter.rescheduleBasedOnMeetingDates = false →
      ∀ e e' changes, policy.updateEvent e body = .ok (e', changes) →
        ((s.pattern = .monthly .sameDay →
            ∀ old, e.recurrence = some old → ¬old.pattern.NamesWeekdayOfMonth) →
          e'.recurrence = some s) ∧
        (s.pattern = .monthly .sameDay →
          ∀ old, e.recurrence = some old → old.pattern.NamesWeekdayOfMonth →
            ∃ new, e'.recurrence = some new ∧ new.interval = s.interval ∧
              new.pattern = old.pattern)) := by
  refine ⟨fun hgroup ↦ ?_, fun hinterval hstays e e' changes hupdate ↦ ?_⟩
  · have hvalid := hwrites.valid_of_group hfifth hgroup
    obtain ⟨e, he⟩ := Request.toEvent_of_valid hvalid
    refine ⟨e, ?_, hwrites.recurrence_of_toEvent hfifth he⟩
    unfold createEvent
    rw [Except.bind_of_eq_ok hrequest, Except.bind_of_eq_ok (Request.validate_eq_ok_iff.mpr hvalid),
      he]
  · obtain ⟨r', hrequest', hupdate⟩ := Except.bind_eq_ok_iff.mp hupdate
    obtain rfl : r = r' := Except.ok.inj (hrequest.symm.trans hrequest')
    obtain ⟨_, -, hupdate⟩ := Except.bind_eq_ok_iff.mp hupdate
    obtain ⟨u, hu, hupdate⟩ := Except.bind_eq_ok_iff.mp hupdate
    obtain ⟨hupdated, -⟩ := Event.update_eq_ok_iff.mp hupdate
    obtain ⟨new, start, hnew, hmade⟩ :=
      hwrites.exists_recurrence_of_updated hfifth hinterval hstays hu hupdated
    refine ⟨fun hreplaced ↦ ?_, fun hsame old hold hkept ↦ ⟨new, hnew, ?_⟩⟩
    · rw [Recurrence.pattern_toPatch hreplaced, Recurrence.make_parts] at hmade
      rw [hnew, Except.ok.inj hmade]
    · rw [hold, Recurrence.pattern_toPatch_of_namesWeekdayOfMonth hsame hkept] at hmade
      exact Recurrence.make_eq_ok_iff.mp hmade

/-- A meeting on every third Monday and Wednesday comes to be on the second Friday of every other
month; the weekdays from before leave no trace. -/
theorem recurrence_of_writesRecurrence_second_friday :
    let policy : RequestPolicy := {}
    let body := "\x7b\"title\":\"Center meeting\",\"startDate\":\"2024-01-12\",\"typeId\":4," ++
      "\"repeating\":true,\"frequency\":3,\"interval\":2,\"repeatsOnNthDayOfMonth\":2," ++
      "\"repeatsOnDay\":5\x7d"
    let s : Recurrence := ⟨2, .monthly (.nth .second .friday), by decide, by decide, rfl⟩
    let old : Recurrence :=
      ⟨3, .weekly (.ofList [.monday, .wednesday]), by decide, by decide, by decide⟩
    let e : Event := { title := "Meeting", startDate := (Date.ofParts? 2024 1 8).get (by decide),
                       entityType := .groups, repeating := true, recurrence := some old }
    ∃ r, policy.request body = .ok r ∧ r.WritesRecurrence s ∧ s.pattern.AvoidsFifth ∧
      (∃ created, policy.createEvent body = .ok created ∧ created.recurrence = some s) ∧
      ∃ e' changes, policy.updateEvent e body = .ok (e', changes) ∧ e'.recurrence = some s := by
  intro policy body s old e
  have hread : (policy.request body).toOption.any (fun r ↦
      r.isSet Parameter.repeating && !r.isSet Parameter.rescheduleBasedOnMeetingDates &&
        !r.has Parameter.repeatsOnLastWeekdayOfMonth && (r.violations policy .create).isEmpty &&
        [(Parameter.frequency, 3), (Parameter.interval, 2), (Parameter.repeatsOnNthDayOfMonth, 2),
          (Parameter.repeatsOnDay, 5)].all fun field ↦
            (r.get? field.1).bind Json.int64? == some field.2) = true := by
    decide +kernel
  cases hrequest : policy.request body with
  | error cause =>
    rw [hrequest] at hread
    cases hread
  | ok r =>
    rw [hrequest] at hread
    simp only [Except.toOption, Option.any_some, Bool.and_eq_true, Bool.not_eq_true',
      List.isEmpty_iff, List.all_cons, List.all_nil, beq_iff_eq, and_true] at hread
    obtain ⟨⟨⟨⟨hrepeating, hstays⟩, hlast⟩, hvalid⟩, hfrequency, hinterval, hplace, hday⟩ := hread
    have hwrites : r.WritesRecurrence s := {
      repeating := hrepeating
      frequency := Request.get?_of_int64? hfrequency
      interval := .inl (Request.get?_of_int64? hinterval)
      days := .nth .second .friday (Request.get?_of_int64? hplace) (Request.get?_of_int64? hday)
        hlast }
    have hfifth : s.pattern.AvoidsFifth := fun weekday h ↦ by cases h
    have hhas : r.has Parameter.interval = true := by
      rw [Request.has, Request.get?_of_int64? hinterval]
      rfl
    have hisOk : (policy.updateEvent e body).isOk = true := by decide +kernel
    obtain ⟨⟨e', changes⟩, hupdate⟩ := Except.exists_eq_ok_of_isOk hisOk
    obtain ⟨hcreate, hupdated⟩ :=
      recurrence_of_writesRecurrence policy body r s hrequest hwrites hfifth
    refine ⟨r, rfl, hwrites, hfifth, hcreate ?_, e', changes, hupdate, ?_⟩
    · rw [hvalid]
      exact fun v hv ↦ absurd hv List.not_mem_nil
    · exact (hupdated hhas hstays e e' changes hupdate).1 fun hsame ↦ by cases hsame

end RequestPolicy

end MeetingCalendar
