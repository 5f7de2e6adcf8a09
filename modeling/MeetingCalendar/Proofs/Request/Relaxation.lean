import MeetingCalendar.Proofs.Request.Independence

/-!
# Updates relax the rules of creation

A request that moves no meeting is checked on an update by the rules of creation, with two kinds of
fault let pass: that a parameter which is mandatory on creation only is not there, and, where the
policy asks for no more than an integer, that a reminder offset is not greater than zero.  Each
section of the rules for updates finds what the section for creation finds, without the faults that
are let pass, so the same holds of whole requests.
-/

namespace MeetingCalendar

/-- The parameters that may be judged less strictly on an update. -/
def Parameter.relaxed : List String :=
  [title, startDate, typeId, repeatsOnDay, firstReminderOffset, secondReminderOffset]

namespace Request

/-- Whether a parameter is mandatory on creation but may be left out of an update.  Only a weekly
event has its weekdays among these: the weekday of a monthly event goes with its place. -/
def mayOmit (r : Request) (name : String) : Bool :=
  [Parameter.title, Parameter.startDate, Parameter.typeId].contains name ||
    (name == Parameter.repeatsOnDay && r.codedFrequency? == some .weekly)

/-- Whether a fault that is found on creation is let pass on an update. -/
def waives (policy : RequestPolicy) (r : Request) (v : Violation) : Bool :=
  match v.constraint with
  | .cannotBeBlank => r.mayOmit v.parameter && !r.has v.parameter
  | .notGreaterThanZero =>
    [Parameter.firstReminderOffset, Parameter.secondReminderOffset].contains v.parameter &&
      policy.offsetsOnUpdate == .presenceOnly
  | _ => false

variable {policy : RequestPolicy} {r : Request} {name : String}

/-! ## What is let pass -/

theorem mayOmit_iff :
    r.mayOmit name = true ↔
      name ∈ [Parameter.title, Parameter.startDate, Parameter.typeId] ∨
        name = Parameter.repeatsOnDay ∧ r.codedFrequency? = some .weekly := by
  rw [mayOmit, Bool.or_eq_true, List.contains_iff_mem, Bool.and_eq_true, beq_iff_eq, beq_iff_eq]

theorem mayOmit_eq_false_of_mem
    (h : name ∈ [Parameter.firstReminderOffset, Parameter.secondReminderOffset]) :
    r.mayOmit name = false := by
  simp only [List.mem_cons, List.not_mem_nil, or_false] at h
  rcases h with rfl | rfl
  · rfl
  · rfl

theorem waives_iff {v : Violation} :
    r.waives policy v = true ↔
      (v.constraint = .cannotBeBlank ∧ r.mayOmit v.parameter = true ∧
          r.has v.parameter = false) ∨
        (v.constraint = .notGreaterThanZero ∧
          v.parameter ∈ [Parameter.firstReminderOffset, Parameter.secondReminderOffset] ∧
          policy.offsetsOnUpdate = .presenceOnly) := by
  unfold waives
  cases v.constraint <;> simp

/-- What an update lets pass is a mandatory parameter that is not there, or a reminder offset. -/
theorem relaxed_of_waives {v : Violation} (h : r.waives policy v = true) :
    (v.constraint = .cannotBeBlank ∧
        v.parameter ∈ [Parameter.title, Parameter.startDate, Parameter.typeId,
          Parameter.repeatsOnDay] ∧
        r.has v.parameter = false) ∨
      (v.constraint = .notGreaterThanZero ∧
        v.parameter ∈ [Parameter.firstReminderOffset, Parameter.secondReminderOffset] ∧
        policy.offsetsOnUpdate = .presenceOnly) := by
  refine (waives_iff.mp h).imp_left fun ⟨hblank, homit, hhas⟩ ↦ ⟨hblank, ?_, hhas⟩
  rcases mayOmit_iff.mp homit with hmem | ⟨hday, -⟩
  · exact List.mem_append_left [Parameter.repeatsOnDay] hmem
  · rw [hday]
    decide

theorem mem_relaxed_of_waives {v : Violation} (h : r.waives policy v = true) :
    v.parameter ∈ Parameter.relaxed := by
  rcases relaxed_of_waives h with ⟨-, hmandatory, -⟩ | ⟨-, hoffset, -⟩
  · exact List.mem_append_left
      [Parameter.firstReminderOffset, Parameter.secondReminderOffset] hmandatory
  · exact List.mem_append_right
      [Parameter.title, Parameter.startDate, Parameter.typeId, Parameter.repeatsOnDay] hoffset

theorem waives_eq_false_of_has {v : Violation} (homit : r.mayOmit v.parameter = true)
    (hhas : r.has v.parameter = true) : r.waives policy v = false := by
  rw [← Bool.not_eq_true]
  intro hwaives
  rcases waives_iff.mp hwaives with ⟨-, -, hnot⟩ | ⟨-, hoffset, -⟩
  · rw [hhas] at hnot
    cases hnot
  · rw [mayOmit_eq_false_of_mem hoffset] at homit
    cases homit

/-- Where nothing is let pass, all faults stay. -/
theorem filter_eq_self_of_not_waives {violations : List Violation}
    (h : ∀ v ∈ violations, r.waives policy v = false) :
    violations.filter (!r.waives policy ·) = violations := by
  rw [List.filter_eq_self]
  intro v hv
  rw [h v hv]
  rfl

theorem filter_eq_self_of_not_mem_relaxed {violations : List Violation}
    (h : ∀ v ∈ violations, v.parameter ∉ Parameter.relaxed) :
    violations.filter (!r.waives policy ·) = violations := by
  refine filter_eq_self_of_not_waives fun v hv ↦ ?_
  rw [← Bool.not_eq_true]
  exact fun hwaives ↦ h v hv (mem_relaxed_of_waives hwaives)

/-- A section about parameters that are judged alike finds the same in both modes. -/
theorem IsLocal.filter_eq_self {names : List String} {part : Request → List Violation}
    (hlocal : IsLocal names part) (hnames : ∀ name ∈ names, name ∉ Parameter.relaxed) :
    (part r).filter (!r.waives policy ·) = part r :=
  filter_eq_self_of_not_mem_relaxed fun v hv ↦ hnames _ (hlocal.parameter_mem v hv)

/-! ## Section by section -/

theorem rescheduleViolations_of_has_eq_false
    (hmoves : ∀ name ∈ Parameter.rescheduleGroup, r.has name = false) :
    r.rescheduleViolations = [] := by
  have hflag := hmoves Parameter.rescheduleBasedOnMeetingDates (by decide)
  refine rescheduleViolations_eq_nil_iff.mpr ⟨fun hhas ↦ ?_, fun name hname hneeded ↦ ?_⟩
  · rw [hflag] at hhas
    cases hhas
  · rw [isSet_eq_false_of_has hflag, hmoves name (List.mem_cons_of_mem _ hname)] at hneeded
    simp at hneeded

/-- On an update, a chain that starts with a check for a mandatory parameter is spared only what
it finds when the parameter is not there. -/
theorem checkIf_isChecked_update {α : Type} {reading : Reading α} {check : Check α}
    {checks : List (Check α)} (homit : r.mayOmit name = true)
    (habsent : reading.isAbsent = !r.has name) (hblank : check .absent = .fail .cannotBeBlank) :
    checkIf (r.isChecked .update name) (Violation.ofChecks name reading (check :: checks)) =
      (checkIf (r.isChecked .create name)
        (Violation.ofChecks name reading (check :: checks))).filter (!r.waives policy ·) := by
  have hchecked : r.isChecked .update name = r.has name := rfl
  rw [isChecked_create, hchecked]
  cases hhas : r.has name with
  | true =>
    refine (filter_eq_self_of_not_waives fun v hv ↦ ?_).symm
    have hparameter := Violation.parameter_of_mem_ofChecks (mem_checkIf.mp hv).2
    exact waives_eq_false_of_has (by rwa [hparameter]) (by rwa [hparameter])
  | false =>
    cases reading with
    | absent =>
      have hwaives : r.waives policy ⟨name, .null, .cannotBeBlank⟩ = true :=
        waives_iff.mpr (.inl ⟨rfl, homit, hhas⟩)
      rw [Violation.ofChecks_cons, hblank]
      simp [checkIf, Reading.raw?, Json.orNull, hwaives]
    | _ =>
      rw [hhas] at habsent
      cases habsent

theorem titleViolations_update :
    r.titleViolations policy .update =
      (r.titleViolations policy .create).filter (!r.waives policy ·) :=
  checkIf_isChecked_update rfl (r.isAbsent_text _) rfl

theorem dateRangeViolations_update :
    r.dateRangeViolations .update =
      (r.dateRangeViolations .create).filter (!r.waives policy ·) := by
  have hend : Parameter.endDate ∉ Parameter.relaxed := by decide
  unfold dateRangeViolations
  rw [List.filter_append]
  congr 1
  · exact checkIf_isChecked_update rfl (r.isAbsent_date _) rfl
  · refine (filter_eq_self_of_not_mem_relaxed fun v hv ↦ ?_).symm
    rcases List.mem_append.mp (mem_checkIf.mp hv).2 with hv | hv
    · rwa [Violation.parameter_of_mem_ofChecks hv]
    · rwa [parameter_of_mem_orderViolations hv]

theorem typeViolations_update :
    r.typeViolations .update = (r.typeViolations .create).filter (!r.waives policy ·) :=
  checkIf_isChecked_update rfl (r.isAbsent_integer _) rfl

theorem frequencyViolations_filter :
    r.frequencyViolations.filter (!r.waives policy ·) = r.frequencyViolations := by
  have hfrequency : Parameter.frequency ∉ Parameter.relaxed := by decide
  have hinterval : Parameter.interval ∉ Parameter.relaxed := by decide
  refine filter_eq_self_of_not_mem_relaxed fun v hv ↦ ?_
  rcases List.mem_append.mp hv with hv | hv
  · rwa [Violation.parameter_of_mem_ofChecks hv]
  · rwa [Violation.parameter_of_mem_ofChecks (mem_checkIf.mp hv).2]

/-- The place of a weekday asks for the weekday in both modes. -/
theorem monthlyViolations_filter (hmonthly : r.codedFrequency? = some .monthly) :
    r.monthlyViolations.filter (!r.waives policy ·) = r.monthlyViolations := by
  have hrelaxed : ∀ name ∈ Parameter.repeatGroup,
      name ∈ Parameter.relaxed → name = Parameter.repeatsOnDay := by decide
  refine filter_eq_self_of_not_waives fun v hv ↦ ?_
  rw [← Bool.not_eq_true]
  intro hwaives
  have hday := hrelaxed _ (isLocal_monthlyViolations.parameter_mem v hv)
    (mem_relaxed_of_waives hwaives)
  rcases waives_iff.mp hwaives with ⟨-, homit, -⟩ | ⟨-, hoffset, -⟩
  · rw [hday] at homit
    rcases mayOmit_iff.mp homit with hmem | ⟨-, hweekly⟩
    · exact absurd hmem (by decide)
    · rw [hmonthly] at hweekly
      cases hweekly
  · rw [hday] at hoffset
    exact absurd hoffset (by decide)

theorem repeatDayViolations_update :
    r.repeatDayViolations .update =
      (r.repeatDayViolations .create).filter (!r.waives policy ·) := by
  unfold repeatDayViolations
  -- Both modes read the same frequency; only weekdays are asked for in different ways.
  split
  · next hweekly =>
    have homit : r.mayOmit Parameter.repeatsOnDay = true := mayOmit_iff.mpr (.inr ⟨rfl, hweekly⟩)
    exact checkIf_isChecked_update homit (r.isAbsent_integers _) rfl
  · next hmonthly => exact (monthlyViolations_filter hmonthly).symm
  · rfl

theorem repeatViolations_update :
    r.repeatViolations .update = (r.repeatViolations .create).filter (!r.waives policy ·) := by
  have hflag : (r.flagViolations Parameter.repeating).filter (!r.waives policy ·) =
      r.flagViolations Parameter.repeating :=
    (isLocal_flagViolations (List.mem_singleton_self _)).filter_eq_self (by decide)
  unfold repeatViolations
  rw [List.filter_append, filter_checkIf, List.filter_append, hflag, frequencyViolations_filter,
    repeatDayViolations_update]

theorem offsetViolations_update_of_positive (hpolicy : policy.offsetsOnUpdate = .positive)
    (hname : name ∈ [Parameter.firstReminderOffset, Parameter.secondReminderOffset]) :
    r.offsetViolations policy .update name =
      (r.offsetViolations policy .create name).filter (!r.waives policy ·) := by
  have hchecks : offsetChecks policy .update = offsetChecks policy .create := by
    simp [offsetChecks, hpolicy]
  unfold offsetViolations
  rw [hchecks]
  refine (filter_eq_self_of_not_waives fun v hv ↦ ?_).symm
  have hparameter := Violation.parameter_of_mem_ofChecks (mem_checkIf.mp hv).2
  rw [← Bool.not_eq_true]
  intro hwaives
  rcases waives_iff.mp hwaives with ⟨-, homit, -⟩ | ⟨-, -, hpresence⟩
  · rw [hparameter, mayOmit_eq_false_of_mem hname] at homit
    cases homit
  · rw [hpolicy] at hpresence
    cases hpresence

theorem offsetViolations_update_of_presenceOnly (hpolicy : policy.offsetsOnUpdate = .presenceOnly)
    (hname : name ∈ [Parameter.firstReminderOffset, Parameter.secondReminderOffset]) :
    r.offsetViolations policy .update name =
      (r.offsetViolations policy .create name).filter (!r.waives policy ·) := by
  have hcreate : offsetChecks policy .create =
      [Check.ignoreIfNull, Check.wellFormed, Check.positive] := rfl
  have hupdate : offsetChecks policy .update = [Check.ignoreIfNull, Check.wellFormed] := by
    simp [offsetChecks, hpolicy]
  unfold offsetViolations
  rw [filter_checkIf, hcreate, hupdate]
  congr 1
  simp only [Violation.ofChecks_cons, Violation.ofChecks_nil]
  cases r.integer name with
  | absent => rfl
  | null => rfl
  | invalid raw expected =>
    have hkept : r.waives policy ⟨name, raw, .ofExpected expected⟩ = false := by
      cases expected <;> rfl
    simp [Check.ignoreIfNull, Reading.isMissing, Check.wellFormed, Reading.raw?, Json.orNull, hkept]
  | value n raw =>
    have hwaives : r.waives policy ⟨name, raw, .notGreaterThanZero⟩ = true :=
      waives_iff.mpr (.inr ⟨rfl, hname, hpolicy⟩)
    by_cases hpositive : 0 < n
    · simp [Check.ignoreIfNull, Reading.isMissing, Check.wellFormed, Check.positive,
        Check.satisfies, hpositive]
    · simp [Check.ignoreIfNull, Reading.isMissing, Check.wellFormed, Check.positive,
        Check.satisfies, hpositive, Reading.raw?, Json.orNull, hwaives]

/-- A reminder offset need not be greater than zero on an update unless the policy says so. -/
theorem offsetViolations_update
    (hname : name ∈ [Parameter.firstReminderOffset, Parameter.secondReminderOffset]) :
    r.offsetViolations policy .update name =
      (r.offsetViolations policy .create name).filter (!r.waives policy ·) := by
  cases hpolicy : policy.offsetsOnUpdate with
  | presenceOnly => exact offsetViolations_update_of_presenceOnly hpolicy hname
  | positive => exact offsetViolations_update_of_positive hpolicy hname

/-! ## Whole requests -/

/-- An update finds what creation finds, without what is let pass. -/
theorem violations_update (hmoves : ∀ name ∈ Parameter.rescheduleGroup, r.has name = false) :
    r.violations policy .update =
      (r.violations policy .create).filter (!r.waives policy ·) := by
  have hoffset : ∀ name ∈ [Parameter.firstReminderOffset, Parameter.secondReminderOffset],
      r.offsetViolations policy .update name =
        (r.offsetViolations policy .create name).filter (!r.waives policy ·) :=
    fun _ ↦ offsetViolations_update
  unfold violations
  simp only [List.filter_append, filter_checkIf]
  rw [rescheduleViolations_of_has_eq_false hmoves, titleViolations_update,
    isLocal_optionalTextViolations.filter_eq_self (by decide),
    isLocal_optionalTextViolations.filter_eq_self (by decide), dateRangeViolations_update,
    isLocal_durationViolations.filter_eq_self (by decide), typeViolations_update,
    repeatViolations_update, isLocal_remindByViolations.filter_eq_self (by decide),
    hoffset Parameter.firstReminderOffset (by decide),
    hoffset Parameter.secondReminderOffset (by decide),
    isLocal_meetingTimeViolations.filter_eq_self (by decide)]
  rfl

/-- The rules for updates are those for creation, relaxed: of a request that moves no meeting, an
update finds what creation finds, in the same order, without what it lets pass.  That is a mandatory
parameter that is not in the request or, by the policy, a reminder offset that is not greater than
zero. -/
theorem violations_update_sublist (policy : RequestPolicy) (r : Request)
    (hmoves : ∀ name ∈ Parameter.rescheduleGroup, r.has name = false) :
    (r.violations policy .update).Sublist (r.violations policy .create) ∧
      r.violations policy .update =
        (r.violations policy .create).filter (!r.waives policy ·) ∧
      ∀ v ∈ r.violations policy .create, v ∉ r.violations policy .update →
        (v.constraint = .cannotBeBlank ∧
            v.parameter ∈ [Parameter.title, Parameter.startDate, Parameter.typeId,
              Parameter.repeatsOnDay] ∧
            r.has v.parameter = false) ∨
          (v.constraint = .notGreaterThanZero ∧
            v.parameter ∈ [Parameter.firstReminderOffset, Parameter.secondReminderOffset] ∧
            policy.offsetsOnUpdate = .presenceOnly) := by
  have hfilter : r.violations policy .update =
      (r.violations policy .create).filter (!r.waives policy ·) := violations_update hmoves
  refine ⟨?_, hfilter, fun v hv hmissing ↦ ?_⟩
  · rw [hfilter]
    exact List.filter_sublist
  · apply relaxed_of_waives
    rw [hfilter, List.mem_filter, Bool.not_eq_true'] at hmissing
    simpa [hv] using hmissing

/-- A weekly event with next to nothing said of it, reminding in the past: of all that creation
finds, an update finds only the interval, which is wrong in both modes. -/
theorem violations_update_sublist_interval :
    let policy : RequestPolicy := {}
    let body := "\x7b\"repeating\":true,\"frequency\":2,\"interval\":0," ++
      "\"firstReminderOffset\":-5\x7d"
    ∃ r, ofBody policy body = .ok r ∧
      (∀ name ∈ Parameter.rescheduleGroup, r.has name = false) ∧
      (r.violations policy .create).map Violation.pair =
        [(Parameter.title, .cannotBeBlank), (Parameter.startDate, .cannotBeBlank),
          (Parameter.typeId, .cannotBeBlank), (Parameter.interval, .notGreaterThanZero),
          (Parameter.repeatsOnDay, .cannotBeBlank),
          (Parameter.firstReminderOffset, .notGreaterThanZero)] ∧
      (r.violations policy .update).map Violation.pair =
        [(Parameter.interval, .notGreaterThanZero)] ∧
      (r.violations policy .update).Sublist (r.violations policy .create) := by
  intro policy body
  have hread : (ofBody policy body).toOption.any (fun r ↦
      Parameter.rescheduleGroup.all (!r.has ·) &&
        decide ((r.violations policy .create).map Violation.pair =
          [(Parameter.title, .cannotBeBlank), (Parameter.startDate, .cannotBeBlank),
            (Parameter.typeId, .cannotBeBlank), (Parameter.interval, .notGreaterThanZero),
            (Parameter.repeatsOnDay, .cannotBeBlank),
            (Parameter.firstReminderOffset, .notGreaterThanZero)]) &&
        decide ((r.violations policy .update).map Violation.pair =
          [(Parameter.interval, .notGreaterThanZero)])) = true := by
    decide +kernel
  cases hrequest : ofBody policy body with
  | error cause =>
    rw [hrequest] at hread
    cases hread
  | ok r =>
    rw [hrequest] at hread
    simp only [Except.toOption, Option.any_some, Bool.and_eq_true, List.all_eq_true,
      Bool.not_eq_true', decide_eq_true_eq] at hread
    obtain ⟨⟨hmoves, hcreate⟩, hupdate⟩ := hread
    exact ⟨r, rfl, hmoves, hcreate, hupdate, (violations_update_sublist policy r hmoves).1⟩

end Request

end MeetingCalendar
