import MeetingCalendar.Error
import MeetingCalendar.Violation.Check

/-!
# What chains of checks find

A chain is a recursion on its checks: it goes on behind a check that passes, and the first check that
does not pass decides what it finds.  From this follows which readings the chains of the calendar
accept, for each shape of chain.  What a chain finds is told apart by the parameter and the
constraint; the value that comes with them is not compared.
-/

namespace MeetingCalendar

variable {α : Type}

namespace Reading

theorem value?_eq_some_iff {reading : Reading α} {v : α} :
    reading.value? = some v ↔ ∃ raw, reading = .value v raw := by
  cases reading <;> simp [value?]

theorem isMissing_iff {reading : Reading α} :
    reading.isMissing = true ↔ reading = .absent ∨ reading = .null := by
  cases reading <;> simp [isMissing]

theorem value?_of_isMissing {reading : Reading α} (h : reading.isMissing = true) :
    reading.value? = none := by
  rcases isMissing_iff.mp h with rfl | rfl <;> rfl

end Reading

namespace Chain

variable {reading : Reading α}

/-- Nothing happens to a chain that is over. -/
theorem foldl_step_of_isDone {chain : Chain} (h : chain.isDone = true) (checks : List (Check α)) :
    checks.foldl (step reading) chain = chain := by
  induction checks with
  | nil => rfl
  | cons check checks ih =>
    have hstep : step reading chain check = chain := by
      cases chain with
      | running => exact absurd h nofun
      | ended => rfl
      | failed constraint => rfl
    rw [List.foldl_cons, hstep, ih]

/-- The first check decides how a chain goes on. -/
theorem run_cons (check : Check α) (checks : List (Check α)) :
    run reading (check :: checks) =
      match check reading with
      | .pass => run reading checks
      | .stop => ended
      | .fail constraint => failed constraint := by
  unfold run
  rw [List.foldl_cons]
  cases hcheck : check reading with
  | pass => rw [step, hcheck]
  | stop => rw [step, hcheck, foldl_step_of_isDone rfl]
  | fail constraint => rw [step, hcheck, foldl_step_of_isDone rfl]

end Chain

namespace Violation

/-- What a violation is told by: the parameter and the constraint. -/
def pair (v : Violation) : String × Constraint :=
  (v.parameter, v.constraint)

variable {parameter : String} {reading : Reading α}

@[simp]
theorem ofChecks_nil : ofChecks parameter reading [] = [] :=
  rfl

theorem ofChecks_cons {check : Check α} {checks : List (Check α)} :
    ofChecks parameter reading (check :: checks) =
      match check reading with
      | .pass => ofChecks parameter reading checks
      | .stop => []
      | .fail constraint => [⟨parameter, Json.orNull reading.raw?, constraint⟩] := by
  unfold ofChecks
  rw [Chain.run_cons]
  cases check reading <;> rfl

/-- A chain finds fault with its own parameter only. -/
theorem parameter_of_mem_ofChecks {checks : List (Check α)} {v : Violation}
    (h : v ∈ ofChecks parameter reading checks) : v.parameter = parameter := by
  unfold ofChecks at h
  obtain ⟨constraint, -, rfl⟩ := Option.map_eq_some_iff.mp (Option.mem_toList.mp h)
  rfl

/-- What a chain finds is what one of its checks says. -/
theorem exists_check_of_mem_ofChecks {checks : List (Check α)} {v : Violation}
    (h : v ∈ ofChecks parameter reading checks) :
    ∃ check ∈ checks, check reading = .fail v.constraint := by
  induction checks with
  | nil => cases h
  | cons check checks ih =>
    rw [ofChecks_cons] at h
    cases hcheck : check reading with
    | pass =>
      rw [hcheck] at h
      obtain ⟨later, hlater, hfail⟩ := ih h
      exact ⟨later, List.mem_cons_of_mem check hlater, hfail⟩
    | stop => rw [hcheck] at h; cases h
    | fail constraint =>
      rw [hcheck] at h
      rw [List.mem_singleton.mp h]
      exact ⟨check, List.mem_cons_self, hcheck⟩

end Violation

namespace Check

variable {reading : Reading α} {constraint : Constraint}

theorem ignoreIfNull_ne_fail : ignoreIfNull reading ≠ .fail constraint := by
  unfold ignoreIfNull
  split
  · exact nofun
  · exact nofun

/-- A test fails with its own constraint, or with the one for values of the wrong kind. -/
theorem constraint_of_satisfies {test : α → Bool} {own : Constraint}
    (h : satisfies test own reading = .fail constraint) :
    constraint = own ∨
      ∃ raw expected, reading = .invalid raw expected ∧ constraint = .ofExpected expected := by
  cases reading with
  | value v raw =>
    rw [satisfies] at h
    split at h
    · cases h
    · exact .inl (Verdict.fail.inj h).symm
  | invalid raw expected => exact .inr ⟨raw, expected, rfl, (Verdict.fail.inj h).symm⟩
  | absent => cases h
  | null => cases h

end Check

/-- The parameters and constraints of a report. -/
def Report.pairs (report : Report) : List (String × Constraint) :=
  report.violations.map Violation.pair

theorem Violation.toResult_eq_ok_iff {violations : List Violation} :
    Violation.toResult violations = .ok () ↔ violations = [] := by
  unfold Violation.toResult Report.toResult Report.isEmpty Report.calendar
  cases violations <;> simp

theorem Violation.toResult_eq_error_iff {violations : List Violation} {error : CalendarError} :
    Violation.toResult violations = .error error ↔
      violations ≠ [] ∧ error = .rejected (.calendar violations) := by
  unfold Violation.toResult Report.toResult Report.isEmpty Report.calendar
  cases violations <;> simp [eq_comm]

/-! ## Chains that find nothing, check by check -/

namespace Violation

variable {parameter : String} {reading : Reading α} {checks : List (Check α)} {test : α → Bool}
  {constraint : Constraint}

theorem ofChecks_notNull_eq_nil_iff :
    ofChecks parameter reading (Check.notNull :: checks) = [] ↔
      reading.isMissing = false ∧ ofChecks parameter reading checks = [] := by
  rw [ofChecks_cons, Check.notNull]
  cases reading.isMissing <;> simp

theorem ofChecks_ignoreIfNull_eq_nil_iff :
    ofChecks parameter reading (Check.ignoreIfNull :: checks) = [] ↔
      reading.isMissing = true ∨ ofChecks parameter reading checks = [] := by
  rw [ofChecks_cons, Check.ignoreIfNull]
  cases reading.isMissing <;> simp

theorem ofChecks_satisfies_eq_nil_iff :
    ofChecks parameter reading (Check.satisfies test constraint :: checks) = [] ↔
      (reading.isMissing = true ∨ ∃ v, reading.value? = some v ∧ test v = true) ∧
        ofChecks parameter reading checks = [] := by
  rw [ofChecks_cons]
  cases reading with
  | value v raw =>
    rw [Check.satisfies]
    by_cases htest : test v = true
    · simp [Reading.value?, htest]
    · simp [Reading.value?, Reading.isMissing, htest]
  | invalid raw expected => simp [Check.satisfies, Reading.value?, Reading.isMissing]
  | absent => simp [Check.satisfies, Reading.isMissing]
  | null => simp [Check.satisfies, Reading.isMissing]

/-- A check for the right kind is a test that every value passes. -/
theorem wellFormed_eq_satisfies (constraint : Constraint) :
    (Check.wellFormed : Check α) = Check.satisfies (fun _ ↦ true) constraint := by
  funext reading
  cases reading <;> rfl

theorem ofChecks_wellFormed_eq_nil_iff :
    ofChecks parameter reading (Check.wellFormed :: checks) = [] ↔
      (reading.isMissing = true ∨ ∃ v, reading.value? = some v) ∧
        ofChecks parameter reading checks = [] := by
  rw [wellFormed_eq_satisfies .cannotBeBlank, ofChecks_satisfies_eq_nil_iff]
  simp only [and_true]

theorem ofChecks_nonempty_eq_nil_iff {isEmpty : α → Bool} :
    ofChecks parameter reading (Check.nonempty isEmpty :: checks) = [] ↔
      (reading.isMissing = false ∧ ∀ v, reading.value? = some v → isEmpty v = false) ∧
        ofChecks parameter reading checks = [] := by
  rw [ofChecks_cons]
  cases reading with
  | value v raw =>
    rw [Check.nonempty]
    cases hempty : isEmpty v <;> simp [Reading.value?, Reading.isMissing, hempty]
  | invalid raw expected => simp [Check.nonempty, Reading.value?, Reading.isMissing]
  | absent => simp [Check.nonempty, Reading.isMissing]
  | null => simp [Check.nonempty, Reading.isMissing]

/-! ## The chains of the calendar -/

/-- A mandatory parameter must have a value that passes the test. -/
theorem ofChecks_mandatory_eq_nil_iff :
    ofChecks parameter reading [Check.notNull, Check.satisfies test constraint] = [] ↔
      ∃ v, reading.value? = some v ∧ test v = true := by
  rw [ofChecks_notNull_eq_nil_iff, ofChecks_satisfies_eq_nil_iff, ofChecks_nil]
  cases reading <;> simp [Reading.isMissing, Reading.value?]

theorem ofChecks_mandatory_both_eq_nil_iff {test' : α → Bool} {constraint' : Constraint} :
    ofChecks parameter reading
        [Check.notNull, Check.satisfies test constraint, Check.satisfies test' constraint'] = [] ↔
      ∃ v, reading.value? = some v ∧ test v = true ∧ test' v = true := by
  rw [ofChecks_notNull_eq_nil_iff, ofChecks_satisfies_eq_nil_iff, ofChecks_satisfies_eq_nil_iff,
    ofChecks_nil]
  cases reading <;> simp [Reading.isMissing, Reading.value?]

/-- An optional parameter may be missing; otherwise it must have a value that passes the test. -/
theorem ofChecks_optional_eq_nil_iff :
    ofChecks parameter reading [Check.ignoreIfNull, Check.satisfies test constraint] = [] ↔
      reading.isMissing = true ∨ ∃ v, reading.value? = some v ∧ test v = true := by
  rw [ofChecks_ignoreIfNull_eq_nil_iff, ofChecks_satisfies_eq_nil_iff, ofChecks_nil]
  simp only [and_true, or_self_left]

/-- A parameter that must not be empty must have a value that is not and passes the test. -/
theorem ofChecks_nonempty_satisfies_eq_nil_iff {isEmpty : α → Bool} :
    ofChecks parameter reading [Check.nonempty isEmpty, Check.satisfies test constraint] = [] ↔
      ∃ v, reading.value? = some v ∧ isEmpty v = false ∧ test v = true := by
  rw [ofChecks_nonempty_eq_nil_iff, ofChecks_satisfies_eq_nil_iff, ofChecks_nil]
  cases reading <;> simp [Reading.isMissing, Reading.value?]

end Violation

end MeetingCalendar
