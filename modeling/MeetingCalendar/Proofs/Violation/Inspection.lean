import MeetingCalendar.Proofs.Violation.Chain
import MeetingCalendar.Violation.Inspection

/-!
# What inspections find

On an inspection that is not done, a check does what its verdict on the reading says; on one that is
done, no check does anything.  So checks that are run on one inspection add what the chain of these
checks finds, to whatever the report held before: nothing, or the violation of the first check that
fails, if no check in front of it has ended the inspection.
-/

namespace MeetingCalendar

variable {α : Type}

namespace Inspection

variable {i : Inspection α}

/-- The inspection behind a verdict. -/
def conclude (i : Inspection α) : Verdict → Inspection α
  | .pass => i
  | .stop => { i with isDone := true }
  | .fail constraint => i.fail constraint

/-! ## Inspections that are done -/

theorem current_of_isDone (h : i.isDone = true) : i.current = (none, i) := by
  rw [current, if_pos h]

theorem satisfies_of_isDone (h : i.isDone = true) (test : α → Bool) (constraint : Constraint) :
    i.satisfies test constraint = i := by
  rw [satisfies, current_of_isDone h]

theorem nonempty_of_isDone (h : i.isDone = true) (isEmpty : α → Bool) :
    i.nonempty isEmpty = i := by
  rw [nonempty, if_pos h]

/-- Ending an inspection that is done changes nothing. -/
theorem ignoreIfNull_of_isDone (h : i.isDone = true) : i.ignoreIfNull = i := by
  have hsame : { i with isDone := true } = i := by rw [← h]
  rw [ignoreIfNull, hsame, ite_self]

/-- No check does anything on an inspection that is done. -/
theorem inspect_of_isDone (h : i.isDone = true) (check : NamedCheck α) : check.inspect i = i := by
  cases check with
  | notNull =>
    change i.notNull = i
    rw [notNull, h]
    rfl
  | ignoreIfNull => exact ignoreIfNull_of_isDone h
  | wellFormed => exact congrArg Prod.snd (current_of_isDone h)
  | satisfies test constraint => exact satisfies_of_isDone h test constraint
  | notBlank => exact nonempty_of_isDone h _
  | maxLength max => exact satisfies_of_isDone h _ _
  | inRange min max => exact satisfies_of_isDone h _ _
  | inRangeOf choice => exact satisfies_of_isDone h _ _
  | positive => exact satisfies_of_isDone h _ _
  | notEmpty => exact nonempty_of_isDone h _
  | eachInRangeOf choice => exact satisfies_of_isDone h _ _

/-! ## Inspections that are not done -/

theorem satisfies_eq_conclude (h : i.isDone = false) (test : α → Bool) (constraint : Constraint) :
    i.satisfies test constraint = i.conclude (Check.satisfies test constraint i.reading) := by
  obtain ⟨report, parameter, reading, isDone⟩ := i
  obtain rfl : isDone = false := h
  cases reading with
  | absent => rfl
  | null => rfl
  | invalid raw expected => rfl
  | value v raw =>
    change (if test v then _ else _) = conclude _ (if test v then .pass else .fail constraint)
    cases test v <;> rfl

theorem wellFormed_eq_conclude (h : i.isDone = false) :
    i.wellFormed = i.conclude (Check.wellFormed i.reading) := by
  obtain ⟨report, parameter, reading, isDone⟩ := i
  obtain rfl : isDone = false := h
  cases reading <;> rfl

theorem nonempty_eq_conclude (h : i.isDone = false) (isEmpty : α → Bool) :
    i.nonempty isEmpty = i.conclude (Check.nonempty isEmpty i.reading) := by
  obtain ⟨report, parameter, reading, isDone⟩ := i
  obtain rfl : isDone = false := h
  cases reading with
  | absent => rfl
  | null => rfl
  | invalid raw expected => rfl
  | value v raw =>
    change (if isEmpty v then _ else _) = conclude _ (if isEmpty v then .fail _ else .pass)
    cases isEmpty v <;> rfl

/-- A check does what its verdict says. -/
theorem inspect_eq_conclude (h : i.isDone = false) (check : NamedCheck α) :
    check.inspect i = i.conclude (check.check i.reading) := by
  cases check with
  | notNull =>
    change i.notNull = i.conclude (Check.notNull i.reading)
    rw [notNull, Check.notNull, h]
    cases i.reading.isMissing <;> rfl
  | ignoreIfNull =>
    change i.ignoreIfNull = i.conclude (Check.ignoreIfNull i.reading)
    rw [ignoreIfNull, Check.ignoreIfNull]
    cases i.reading.isMissing <;> rfl
  | wellFormed => exact wellFormed_eq_conclude h
  | satisfies test constraint => exact satisfies_eq_conclude h test constraint
  | notBlank => exact nonempty_eq_conclude h _
  | maxLength max => exact satisfies_eq_conclude h _ _
  | inRange min max => exact satisfies_eq_conclude h _ _
  | inRangeOf choice => exact satisfies_eq_conclude h _ _
  | positive => exact satisfies_eq_conclude h _ _
  | notEmpty => exact nonempty_eq_conclude h _
  | eachInRangeOf choice => exact satisfies_eq_conclude h _ _

/-! ## Checks in order -/

theorem run_cons (i : Inspection α) (check : NamedCheck α) (checks : List (NamedCheck α)) :
    i.run (check :: checks) = (check.inspect i).run checks :=
  rfl

theorem run_of_isDone (h : i.isDone = true) (checks : List (NamedCheck α)) : i.run checks = i := by
  induction checks with
  | nil => rfl
  | cons check checks ih => rw [run_cons, inspect_of_isDone h, ih]

/-- Checks that are run on one inspection add what their chain finds. -/
theorem report_run (h : i.isDone = false) (checks : List (NamedCheck α)) :
    (i.run checks).report = i.report.append
      (Violation.ofChecks i.parameter i.reading (checks.map NamedCheck.check)) := by
  have hnone : i.report.append [] = i.report := by rw [Report.append, List.append_nil]
  induction checks with
  | nil => exact hnone.symm
  | cons check checks ih =>
    rw [run_cons, inspect_eq_conclude h, List.map_cons, Violation.ofChecks_cons]
    cases check.check i.reading with
    | pass => exact ih
    | stop =>
      rw [run_of_isDone rfl]
      exact hnone.symm
    | fail constraint =>
      rw [run_of_isDone rfl]
      rfl

end Inspection

/-! ## The first check that fails -/

namespace Check

variable {reading : Reading α}

theorem satisfies_ne_stop {test : α → Bool} {constraint : Constraint} :
    satisfies test constraint reading ≠ .stop := by
  intro h
  cases reading with
  | value v raw =>
    rw [satisfies] at h
    split at h
    · cases h
    · cases h
  | invalid raw expected => cases h
  | absent => cases h
  | null => cases h

theorem nonempty_ne_stop {isEmpty : α → Bool} : nonempty isEmpty reading ≠ .stop := by
  intro h
  cases reading with
  | value v raw =>
    rw [nonempty] at h
    split at h
    · cases h
    · cases h
  | invalid raw expected => cases h
  | absent => cases h
  | null => cases h

theorem notNull_ne_stop : notNull reading ≠ .stop := by
  intro h
  unfold notNull at h
  split at h
  · cases h
  · cases h

theorem ignoreIfNull_eq_stop_iff : ignoreIfNull reading = .stop ↔ reading.isMissing = true := by
  unfold ignoreIfNull
  cases reading.isMissing <;> simp

end Check

namespace NamedCheck

variable {reading : Reading α} {check : NamedCheck α} {checks : List (NamedCheck α)}
  {constraint : Constraint}

/-- A check ends a chain when it is to ignore a missing value and the value is missing. -/
def Ends (check : NamedCheck α) (reading : Reading α) : Prop :=
  check = ignoreIfNull ∧ reading.isMissing = true

theorem check_eq_stop_iff : check.check reading = .stop ↔ check.Ends reading := by
  have hother : check ≠ ignoreIfNull → check.check reading ≠ .stop := by
    intro hne
    cases check with
    | notNull => exact Check.notNull_ne_stop
    | ignoreIfNull => exact absurd rfl hne
    | wellFormed =>
      change Check.wellFormed reading ≠ .stop
      rw [Violation.wellFormed_eq_satisfies .cannotBeBlank]
      exact Check.satisfies_ne_stop
    | satisfies test constraint => exact Check.satisfies_ne_stop
    | notBlank => exact Check.nonempty_ne_stop
    | maxLength max => exact Check.satisfies_ne_stop
    | inRange min max => exact Check.satisfies_ne_stop
    | inRangeOf choice => exact Check.satisfies_ne_stop
    | positive => exact Check.satisfies_ne_stop
    | notEmpty => exact Check.nonempty_ne_stop
    | eachInRangeOf choice => exact Check.satisfies_ne_stop
  by_cases h : check = ignoreIfNull
  · subst h
    rw [Ends, eq_self_iff_true, true_and]
    exact Check.ignoreIfNull_eq_stop_iff
  · exact iff_of_false (hother h) fun hends ↦ h hends.1

theorem check_eq_pass_iff : check.check reading = .pass ↔
    ¬check.Ends reading ∧ ∀ constraint, check.check reading ≠ .fail constraint := by
  rw [← check_eq_stop_iff]
  cases check.check reading <;> simp

/-- Some check fails with a constraint, and no check in front of it fails or ends the chain. -/
def FailsFirst (reading : Reading α) (checks : List (NamedCheck α)) (constraint : Constraint) :
    Prop :=
  ∃ before check after, checks = before ++ check :: after ∧ check.check reading = .fail constraint ∧
    ∀ earlier ∈ before, ¬earlier.Ends reading ∧ ∀ other, earlier.check reading ≠ .fail other

theorem failsFirst_cons_iff : FailsFirst reading (check :: checks) constraint ↔
    check.check reading = .fail constraint ∨
      check.check reading = .pass ∧ FailsFirst reading checks constraint := by
  constructor
  · rintro ⟨before, first, after, heq, hfail, hbefore⟩
    cases before with
    | nil =>
      obtain ⟨rfl, rfl⟩ := List.cons.inj heq
      exact .inl hfail
    | cons earlier before =>
      obtain ⟨rfl, rfl⟩ := List.cons.inj heq
      obtain ⟨hearlier, hbefore⟩ := List.forall_mem_cons.mp hbefore
      exact .inr ⟨check_eq_pass_iff.mpr hearlier, before, first, after, rfl, hfail, hbefore⟩
  · rintro (hfail | ⟨hpass, before, first, after, rfl, hfail, hbefore⟩)
    · exact ⟨[], check, checks, rfl, hfail, nofun⟩
    · refine ⟨check :: before, first, after, rfl, hfail, ?_⟩
      exact List.forall_mem_cons.mpr ⟨check_eq_pass_iff.mp hpass, hbefore⟩

/-- The first check that fails is what a chain finds. -/
theorem failsFirst_iff : FailsFirst reading checks constraint ↔
    (Chain.run reading (checks.map NamedCheck.check)).constraint? = some constraint := by
  induction checks with
  | nil =>
    refine iff_of_false ?_ nofun
    rintro ⟨before, first, after, heq, -⟩
    cases before <;> cases heq
  | cons check checks ih =>
    rw [failsFirst_cons_iff, List.map_cons, Chain.run_cons, ih]
    cases check.check reading <;> simp [Chain.constraint?]

end NamedCheck

/-- Checks that are run on one inspection, in whatever order and number, leave what the report held
before.  They add the violation of the first check that fails on the reading, when no check in front
of it ignores the value because it is missing, and otherwise nothing. -/
theorem Report.violations_run (report : Report) (parameter : String) (reading : Reading α)
    (checks : List (NamedCheck α)) :
    let after := ((report.inspect parameter reading).run checks).report
    after = report.append (Violation.ofChecks parameter reading (checks.map NamedCheck.check)) ∧
      after.resource = report.resource ∧
      ((after.violations = report.violations ∧
          ∀ constraint, ¬NamedCheck.FailsFirst reading checks constraint) ∨
        ∃ constraint, NamedCheck.FailsFirst reading checks constraint ∧
          after.violations =
            report.violations ++ [⟨parameter, Json.orNull reading.raw?, constraint⟩]) := by
  intro after
  have hafter : after = report.append
      (Violation.ofChecks parameter reading (checks.map NamedCheck.check)) :=
    Inspection.report_run rfl checks
  refine ⟨hafter, (congrArg Report.resource hafter).trans rfl, ?_⟩
  have hviolations : after.violations = report.violations ++
      Violation.ofChecks parameter reading (checks.map NamedCheck.check) :=
    congrArg Report.violations hafter
  simp only [NamedCheck.failsFirst_iff]
  rw [hviolations, Violation.ofChecks]
  cases (Chain.run reading (checks.map NamedCheck.check)).constraint? with
  | none => exact .inl ⟨List.append_nil _, fun _ ↦ nofun⟩
  | some constraint => exact .inr ⟨constraint, rfl, rfl⟩

end MeetingCalendar
