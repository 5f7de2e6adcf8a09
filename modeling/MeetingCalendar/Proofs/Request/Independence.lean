import Mathlib.Data.List.Nodup
import MeetingCalendar.Proofs.Except
import MeetingCalendar.Proofs.Request.Validity

/-!
# Independent parameters

Some parameters of a request are judged together, such as the start date with the end date or all
those that say how an event repeats; `Parameter.groups` lists them.  A section of the rules is local
to its group: it looks at the parameters of the group only and finds fault with no others.  As all
sections are run on every request, what is wrong with one group can neither hide nor change what is
found in another one.

The pattern for dates is read with every date, so it is kept out of the groups.  It matters to the
four parameters that are dates and to nothing else.
-/

namespace MeetingCalendar

namespace Parameter

/-- The parameters that say whether and how an event repeats. -/
def repeatGroup : List String :=
  [repeating, frequency, interval, repeatsOnDay, repeatsOnNthDayOfMonth,
    repeatsOnLastWeekdayOfMonth]

/-- The parameters that move a meeting. -/
def rescheduleGroup : List String :=
  [rescheduleBasedOnMeetingDates, presentMeetingDate, newMeetingDate]

/-- The parameters that a request is checked for, those that are judged together in one group. -/
def groups : List (List String) :=
  [rescheduleGroup, [title], [description], [location], [startDate, endDate], [duration], [typeId],
    repeatGroup, [remindById], [firstReminderOffset], [secondReminderOffset], [meetingTime]]

def dates : List String :=
  [startDate, endDate, presentMeetingDate, newMeetingDate]

end Parameter

namespace Request

/-- Two requests write dates and times in the same way and say the same under some names. -/
structure AgreeOn (names : List String) (r r' : Request) : Prop where
  datePattern : r.datePattern = r'.datePattern
  timePattern : r.timePattern = r'.timePattern
  get? : ∀ name ∈ names, r.get? name = r'.get? name

/-- A function of a request looks at some parameters only. -/
def DependsOn {β : Type} (names : List String) (f : Request → β) : Prop :=
  ∀ ⦃r r' : Request⦄, AgreeOn names r r' → f r = f r'

/-- A part of the rules looks at some parameters only and finds fault with no others. -/
structure IsLocal (names : List String) (part : Request → List Violation) : Prop where
  dependsOn : DependsOn names part
  parameter_mem : ∀ ⦃r : Request⦄, ∀ v ∈ part r, v.parameter ∈ names

section Local

variable {α : Type} {names : List String} {name : String} {mode : Mode}
  {policy : RequestPolicy} {part part' : Request → List Violation}

/-! ## What readings depend on -/

theorem dependsOn_has (h : name ∈ names) : DependsOn names (has · name) :=
  fun _ _ hagree ↦ by simp only [has, hagree.get? name h]

theorem dependsOn_isChecked (h : name ∈ names) : DependsOn names (isChecked · mode name) :=
  fun _ _ hagree ↦ by simp only [isChecked, has, hagree.get? name h]

theorem dependsOn_text (h : name ∈ names) : DependsOn names (text · name) :=
  fun _ _ hagree ↦ by simp only [text, hagree.get? name h]

theorem dependsOn_integer (h : name ∈ names) : DependsOn names (integer · name) :=
  fun _ _ hagree ↦ by simp only [integer, hagree.get? name h]

theorem dependsOn_integers (h : name ∈ names) : DependsOn names (integers · name) :=
  fun _ _ hagree ↦ by simp only [integers, hagree.get? name h]

theorem dependsOn_boolean (h : name ∈ names) : DependsOn names (boolean · name) :=
  fun _ _ hagree ↦ by simp only [boolean, hagree.get? name h]

theorem dependsOn_isSet (h : name ∈ names) : DependsOn names (isSet · name) :=
  fun _ _ hagree ↦ by simp only [isSet, dependsOn_boolean h hagree]

theorem dependsOn_date (h : name ∈ names) : DependsOn names (date · name) :=
  fun _ _ hagree ↦ by simp only [date, hagree.datePattern, hagree.get? name h]

theorem dependsOn_time (h : name ∈ names) : DependsOn names (time · name) :=
  fun _ _ hagree ↦ by simp only [time, hagree.timePattern, hagree.get? name h]

/-! ## How local parts are put together -/

namespace IsLocal

theorem nil : IsLocal names fun _ ↦ [] :=
  ⟨fun _ _ _ ↦ rfl, nofun⟩

theorem append (h : IsLocal names part) (h' : IsLocal names part') :
    IsLocal names fun r ↦ part r ++ part' r where
  dependsOn r r' hagree := by simp only [h.dependsOn hagree, h'.dependsOn hagree]
  parameter_mem r v hv := (List.mem_append.mp hv).elim (h.parameter_mem v) (h'.parameter_mem v)

theorem checkIf {applies : Request → Bool} (happlies : DependsOn names applies)
    (h : IsLocal names part) : IsLocal names fun r ↦ checkIf (applies r) (part r) where
  dependsOn r r' hagree := by simp only [happlies hagree, h.dependsOn hagree]
  parameter_mem _ v hv := h.parameter_mem v (mem_checkIf.mp hv).2

theorem ofChecks {reading : Request → Reading α} {checks : List (Check α)} (h : name ∈ names)
    (hreading : DependsOn names reading) :
    IsLocal names fun r ↦ Violation.ofChecks name (reading r) checks where
  dependsOn r r' hagree := by simp only [hreading hagree]
  parameter_mem r v hv := by rwa [Violation.parameter_of_mem_ofChecks hv]

end IsLocal

/-! ## The sections -/

theorem isLocal_flagViolations (h : name ∈ names) : IsLocal names (flagViolations · name) :=
  .checkIf (dependsOn_has h) (.ofChecks h (dependsOn_boolean h))

theorem isLocal_dateViolations (h : name ∈ names) : IsLocal names (dateViolations · name) :=
  .ofChecks h (dependsOn_date h)

theorem isLocal_titleViolations : IsLocal [Parameter.title] (titleViolations policy mode) :=
  have h : Parameter.title ∈ [Parameter.title] := List.mem_cons_self
  .checkIf (dependsOn_isChecked h) (.ofChecks h (dependsOn_text h))

theorem isLocal_optionalTextViolations {max : Nat} :
    IsLocal [name] (optionalTextViolations · name max) :=
  have h : name ∈ [name] := List.mem_cons_self
  .checkIf (dependsOn_has h) (.ofChecks h (dependsOn_text h))

theorem parameter_of_mem_orderViolations {r : Request} {v : Violation}
    (h : v ∈ r.orderViolations) : v.parameter = Parameter.endDate := by
  unfold orderViolations at h
  split at h
  · split at h
    · rw [List.mem_singleton.mp h]
    · cases h
  · cases h

theorem isLocal_orderViolations :
    IsLocal [Parameter.startDate, Parameter.endDate] orderViolations where
  dependsOn r r' hagree := by
    simp only [orderViolations, dependsOn_date (List.mem_cons_self) hagree,
      dependsOn_date (List.mem_cons_of_mem _ List.mem_cons_self) hagree]
  parameter_mem r v hv := by
    rw [parameter_of_mem_orderViolations hv]
    exact List.mem_cons_of_mem _ List.mem_cons_self

theorem isLocal_dateRangeViolations :
    IsLocal [Parameter.startDate, Parameter.endDate] (dateRangeViolations mode) := by
  have hstart : Parameter.startDate ∈ [Parameter.startDate, Parameter.endDate] := by decide
  have hend : Parameter.endDate ∈ [Parameter.startDate, Parameter.endDate] := by decide
  exact .append (.checkIf (dependsOn_isChecked hstart) (isLocal_dateViolations hstart))
    (.checkIf (dependsOn_has hend) ((isLocal_dateViolations hend).append isLocal_orderViolations))

theorem isLocal_durationViolations : IsLocal [Parameter.duration] durationViolations :=
  have h : Parameter.duration ∈ [Parameter.duration] := List.mem_cons_self
  .checkIf (dependsOn_has h) (.ofChecks h (dependsOn_integer h))

theorem isLocal_typeViolations : IsLocal [Parameter.typeId] (typeViolations mode) :=
  have h : Parameter.typeId ∈ [Parameter.typeId] := List.mem_cons_self
  .checkIf (dependsOn_isChecked h) (.ofChecks h (dependsOn_integer h))

theorem isLocal_frequencyViolations : IsLocal Parameter.repeatGroup frequencyViolations := by
  have hfrequency : Parameter.frequency ∈ Parameter.repeatGroup := by decide
  have hinterval : Parameter.interval ∈ Parameter.repeatGroup := by decide
  exact .append (.ofChecks hfrequency (dependsOn_integer hfrequency))
    (.checkIf (dependsOn_has hinterval) (.ofChecks hinterval (dependsOn_integer hinterval)))

theorem isLocal_weeklyViolations : IsLocal Parameter.repeatGroup (weeklyViolations mode) := by
  have h : Parameter.repeatsOnDay ∈ Parameter.repeatGroup := by decide
  exact .checkIf (dependsOn_isChecked h) (.ofChecks h (dependsOn_integers h))

theorem isLocal_exclusionViolations : IsLocal Parameter.repeatGroup exclusionViolations where
  dependsOn r r' hagree := by
    have hnth : Parameter.repeatsOnNthDayOfMonth ∈ Parameter.repeatGroup := by decide
    have hlast : Parameter.repeatsOnLastWeekdayOfMonth ∈ Parameter.repeatGroup := by decide
    simp only [exclusionViolations, dependsOn_integer hnth hagree, dependsOn_integer hlast hagree]
  parameter_mem r v hv := by
    rw [List.mem_singleton.mp (mem_checkIf.mp hv).2]
    change Parameter.repeatsOnLastWeekdayOfMonth ∈ Parameter.repeatGroup
    decide

theorem isLocal_monthlyViolations : IsLocal Parameter.repeatGroup monthlyViolations := by
  have hnth : Parameter.repeatsOnNthDayOfMonth ∈ Parameter.repeatGroup := by decide
  have hlast : Parameter.repeatsOnLastWeekdayOfMonth ∈ Parameter.repeatGroup := by decide
  have hday : Parameter.repeatsOnDay ∈ Parameter.repeatGroup := by decide
  have hplace : DependsOn Parameter.repeatGroup fun r ↦
      (r.integer Parameter.repeatsOnNthDayOfMonth).value?.any (Coded.accepts Ordinal) :=
    fun r r' hagree ↦ by simp only [dependsOn_integer hnth hagree]
  exact (((IsLocal.ofChecks hnth (dependsOn_integer hnth)).append
    (.ofChecks hlast (dependsOn_integer hlast))).append isLocal_exclusionViolations).append
      (.checkIf hplace (.ofChecks hday (dependsOn_integer hday)))

theorem isLocal_repeatDayViolations :
    IsLocal Parameter.repeatGroup (repeatDayViolations mode) where
  dependsOn r r' hagree := by
    have h : Parameter.frequency ∈ Parameter.repeatGroup := by decide
    simp only [repeatDayViolations, dependsOn_integer h hagree,
      isLocal_weeklyViolations.dependsOn hagree, isLocal_monthlyViolations.dependsOn hagree]
  parameter_mem r v hv := by
    unfold repeatDayViolations at hv
    split at hv
    · exact isLocal_weeklyViolations.parameter_mem v hv
    · exact isLocal_monthlyViolations.parameter_mem v hv
    · cases hv

theorem isLocal_repeatViolations : IsLocal Parameter.repeatGroup (repeatViolations mode) := by
  have h : Parameter.repeating ∈ Parameter.repeatGroup := by decide
  exact .append (isLocal_flagViolations h) (.checkIf (dependsOn_isSet h)
    (isLocal_frequencyViolations.append isLocal_repeatDayViolations))

theorem isLocal_remindByViolations : IsLocal [Parameter.remindById] remindByViolations :=
  have h : Parameter.remindById ∈ [Parameter.remindById] := List.mem_cons_self
  .checkIf (dependsOn_has h) (.ofChecks h (dependsOn_integer h))

theorem isLocal_offsetViolations : IsLocal [name] (offsetViolations policy mode · name) :=
  have h : name ∈ [name] := List.mem_cons_self
  .checkIf (dependsOn_has h) (.ofChecks h (dependsOn_integer h))

theorem isLocal_meetingTimeViolations : IsLocal [Parameter.meetingTime] meetingTimeViolations :=
  have h : Parameter.meetingTime ∈ [Parameter.meetingTime] := List.mem_cons_self
  .checkIf (dependsOn_has h) (.ofChecks h (dependsOn_time h))

theorem isLocal_rescheduleViolations : IsLocal Parameter.rescheduleGroup rescheduleViolations := by
  have hflag : Parameter.rescheduleBasedOnMeetingDates ∈ Parameter.rescheduleGroup := by decide
  have hdate {name : String} (h : name ∈ Parameter.rescheduleGroup) :
      IsLocal Parameter.rescheduleGroup fun r ↦
        Request.checkIf (r.isSet Parameter.rescheduleBasedOnMeetingDates || r.has name)
          (r.dateViolations name) := by
    refine .checkIf (fun r r' hagree ↦ ?_) (isLocal_dateViolations h)
    simp only [dependsOn_isSet hflag hagree, dependsOn_has h hagree]
  have hpresent : Parameter.presentMeetingDate ∈ Parameter.rescheduleGroup := by decide
  have hnew : Parameter.newMeetingDate ∈ Parameter.rescheduleGroup := by decide
  have hdates := (hdate hpresent).append ((hdate hnew).append .nil)
  exact .append (isLocal_flagViolations hflag) hdates

end Local

/-- The sections of the rules in order, each with its group. -/
def sections (policy : RequestPolicy) (mode : Mode) :
    List (List String × (Request → List Violation)) :=
  [(Parameter.rescheduleGroup, fun r ↦ checkIf (mode == .update) r.rescheduleViolations),
    ([Parameter.title], titleViolations policy mode),
    ([Parameter.description],
      (optionalTextViolations · Parameter.description policy.descriptionMaxLength)),
    ([Parameter.location], (optionalTextViolations · Parameter.location policy.locationMaxLength)),
    ([Parameter.startDate, Parameter.endDate], dateRangeViolations mode),
    ([Parameter.duration], durationViolations),
    ([Parameter.typeId], typeViolations mode),
    (Parameter.repeatGroup, repeatViolations mode),
    ([Parameter.remindById], remindByViolations),
    ([Parameter.firstReminderOffset],
      (offsetViolations policy mode · Parameter.firstReminderOffset)),
    ([Parameter.secondReminderOffset],
      (offsetViolations policy mode · Parameter.secondReminderOffset)),
    ([Parameter.meetingTime], meetingTimeViolations)]

variable {policy : RequestPolicy} {mode : Mode}

theorem violations_eq_flatMap (r : Request) :
    r.violations policy mode = (sections policy mode).flatMap fun part ↦ part.2 r := by
  simp only [violations, sections, List.flatMap_cons, List.flatMap_nil, List.append_nil,
    List.append_assoc]

theorem isLocal_of_mem_sections {part : List String × (Request → List Violation)}
    (h : part ∈ sections policy mode) : IsLocal part.1 part.2 := by
  revert part
  simp only [sections, List.forall_mem_cons, List.not_mem_nil, false_implies, implies_true,
    and_true]
  exact ⟨.checkIf (fun _ _ _ ↦ rfl) isLocal_rescheduleViolations, isLocal_titleViolations,
    isLocal_optionalTextViolations, isLocal_optionalTextViolations, isLocal_dateRangeViolations,
    isLocal_durationViolations, isLocal_typeViolations, isLocal_repeatViolations,
    isLocal_remindByViolations, isLocal_offsetViolations, isLocal_offsetViolations,
    isLocal_meetingTimeViolations⟩

theorem fst_mem_groups {part : List String × (Request → List Violation)}
    (h : part ∈ sections policy mode) : part.1 ∈ Parameter.groups := by
  have hgroups : (sections policy mode).map Prod.fst = Parameter.groups := rfl
  rw [← hgroups]
  exact List.mem_map_of_mem h

/-- No parameter is in two groups. -/
theorem not_mem_of_mem_group {group other : List String} (hgroup : group ∈ Parameter.groups)
    (hother : other ∈ Parameter.groups) (hne : other ≠ group) {name : String} (h : name ∈ other) :
    name ∉ group := by
  have hall : ∀ group ∈ Parameter.groups, ∀ other ∈ Parameter.groups, other ≠ group →
      ∀ name ∈ other, name ∉ group := by
    decide +kernel
  exact hall group hgroup other hother hne name h

/-- No two sections are about the same group. -/
theorem nodup_map_fst_sections : ((sections policy mode).map Prod.fst).Nodup := by
  change Parameter.groups.Nodup
  decide

theorem eq_of_mem_sections {part other : List String × (Request → List Violation)}
    (h : part ∈ sections policy mode) (hother : other ∈ sections policy mode)
    (hgroup : part.1 = other.1) : part = other :=
  List.inj_on_of_nodup_map nodup_map_fst_sections h hother hgroup

/-- A request with faults in one group at most has none if the section of the group finds none. -/
theorem violations_eq_nil_of_mem_sections {r : Request}
    {part : List String × (Request → List Violation)} (h : part ∈ sections policy mode)
    (hpart : part.2 r = []) (hgroup : ∀ v ∈ r.violations policy mode, v.parameter ∈ part.1) :
    r.violations policy mode = [] := by
  rw [violations_eq_flatMap, List.flatMap_eq_nil_iff]
  intro other hother
  by_cases heq : other.1 = part.1
  · rw [eq_of_mem_sections hother h heq, hpart]
  · -- What another section finds would belong to its group and to this one.
    rw [List.eq_nil_iff_forall_not_mem]
    intro v hv
    have hmem : v ∈ r.violations policy mode := by
      rw [violations_eq_flatMap]
      exact List.mem_flatMap.mpr ⟨other, hother, hv⟩
    have hlocal := (isLocal_of_mem_sections hother).parameter_mem v hv
    exact not_mem_of_mem_group (fst_mem_groups h) (fst_mem_groups hother) heq hlocal
      (hgroup v hmem)

/-- What is found in a group is decided by the parameters of the group. -/
theorem filter_violations_of_agreeOn {group : List String} (hgroup : group ∈ Parameter.groups)
    {r r' : Request} (hagree : AgreeOn group r r') :
    (r.violations policy mode).filter (·.parameter ∈ group) =
      (r'.violations policy mode).filter (·.parameter ∈ group) := by
  simp only [violations_eq_flatMap, List.filter_flatMap]
  apply List.flatMap_congr
  intro part hpart
  have hlocal := isLocal_of_mem_sections hpart
  by_cases heq : part.1 = group
  · rw [← heq] at hagree
    rw [hlocal.dependsOn hagree]
  · -- The section is about another group, so nothing of what it finds is kept.
    have hnone : ∀ r : Request, (part.2 r).filter (·.parameter ∈ group) = [] := by
      intro r
      rw [List.filter_eq_nil_iff]
      intro v hv
      rw [decide_eq_true_eq]
      exact not_mem_of_mem_group hgroup (fst_mem_groups hpart) heq
        (hlocal.parameter_mem v hv)
    rw [hnone, hnone]

/-! ## The pattern for dates -/

theorem filter_checkIf {applies : Bool} {violations : List Violation} {keep : Violation → Bool} :
    (checkIf applies violations).filter keep = checkIf applies (violations.filter keep) := by
  cases applies <;> rfl

theorem filter_eq_nil_of_dates {violations : List Violation}
    (h : ∀ v ∈ violations, v.parameter ∈ Parameter.dates) :
    violations.filter (·.parameter ∉ Parameter.dates) = [] := by
  rw [List.filter_eq_nil_iff]
  intro v hv
  simpa using h v hv

theorem filter_dateRangeViolations (r : Request) :
    (r.dateRangeViolations mode).filter (·.parameter ∉ Parameter.dates) = [] := by
  have hsubset : [Parameter.startDate, Parameter.endDate] ⊆ Parameter.dates := by decide
  exact filter_eq_nil_of_dates fun v hv ↦ hsubset (isLocal_dateRangeViolations.parameter_mem v hv)

theorem filter_rescheduleViolations (r : Request) :
    r.rescheduleViolations.filter (·.parameter ∉ Parameter.dates) =
      (r.flagViolations Parameter.rescheduleBasedOnMeetingDates).filter
        (·.parameter ∉ Parameter.dates) := by
  have hsubset : [Parameter.presentMeetingDate, Parameter.newMeetingDate] ⊆ Parameter.dates := by
    decide
  unfold rescheduleViolations
  rw [List.filter_append, List.append_right_eq_self]
  apply filter_eq_nil_of_dates
  intro v hv
  obtain ⟨name, hname, hv⟩ := List.mem_flatMap.mp hv
  have hdate := (isLocal_dateViolations (List.mem_singleton_self name)).parameter_mem v
    (mem_checkIf.mp hv).2
  rw [List.mem_singleton.mp hdate]
  exact hsubset hname

/-- Another pattern for dates changes what is found in dates only. -/
theorem filter_violations_withDatePattern (r : Request) (pattern : Pattern) :
    (violations policy mode { r with datePattern := pattern }).filter
        (·.parameter ∉ Parameter.dates) =
      (r.violations policy mode).filter (·.parameter ∉ Parameter.dates) := by
  simp only [violations, List.filter_append, filter_checkIf, filter_rescheduleViolations,
    filter_dateRangeViolations]
  -- No section that is left reads a date.
  rfl

theorem dateFormat_not_mem_group {group : List String} (h : group ∈ Parameter.groups) :
    Parameter.dateFormat ∉ group := by
  have hall : ∀ group ∈ Parameter.groups, Parameter.dateFormat ∉ group := by decide +kernel
  exact hall group h

/-- Requests that agree on all groups have the same violations. -/
theorem violations_eq_of_agreeOn {r r' : Request}
    (h : ∀ group ∈ Parameter.groups, AgreeOn group r r') :
    r.violations policy mode = r'.violations policy mode := by
  simp only [violations_eq_flatMap]
  apply List.flatMap_congr
  intro part hpart
  exact (isLocal_of_mem_sections hpart).dependsOn (h part.1 (fst_mem_groups hpart))

theorem ofText_timePattern {json : Json} {r : Request} (h : ofJson policy json = .ok r) :
    Pattern.ofText (patternText r.fields Parameter.timeFormat policy.defaultTimePattern) =
      .ok r.timePattern := by
  unfold ofJson at h
  split at h
  · unfold ofFields at h
    simp only [Except.bind_eq_ok_iff, Except.mapError_eq_ok_iff, Except.pure_eq_ok_iff] at h
    obtain ⟨datePattern, -, timePattern, htime, rfl⟩ := h
    exact htime
  · cases h

/-- The pattern for times is decided by the parameter that names it. -/
theorem timePattern_eq_of_get? {json json' : Json} {r r' : Request}
    (h : ofJson policy json = .ok r) (h' : ofJson policy json' = .ok r')
    (hformat : r.get? Parameter.timeFormat = r'.get? Parameter.timeFormat) :
    r.timePattern = r'.timePattern := by
  have htext : patternText r.fields Parameter.timeFormat policy.defaultTimePattern =
      patternText r'.fields Parameter.timeFormat policy.defaultTimePattern := by
    unfold get? at hformat
    rw [patternText, patternText, hformat]
  have heq := (ofText_timePattern h).symm.trans (htext ▸ ofText_timePattern h')
  exact Except.ok.inj heq

/-- What is found in one group of parameters does not depend on the other parameters: two requests
with the same patterns that say the same under the names of a group have the same violations of the
group, in the same order.  And two requests that differ at most in the pattern for dates have the
same violations of all parameters that are not dates. -/
theorem filter_violations_eq_of_agree (policy : RequestPolicy) (mode : Mode) :
    (∀ group ∈ Parameter.groups, ∀ r r' : Request,
      r.datePattern = r'.datePattern → r.timePattern = r'.timePattern →
      (∀ name ∈ group, r.get? name = r'.get? name) →
        (r.violations policy mode).filter (·.parameter ∈ group) =
          (r'.violations policy mode).filter (·.parameter ∈ group)) ∧
    ∀ (json json' : Json) (r r' : Request), ofJson policy json = .ok r →
      ofJson policy json' = .ok r' →
      (∀ name, name ≠ Parameter.dateFormat → r.get? name = r'.get? name) →
        (r.violations policy mode).filter (·.parameter ∉ Parameter.dates) =
          (r'.violations policy mode).filter (·.parameter ∉ Parameter.dates) := by
  refine ⟨fun group hgroup r r' hdate htime hget ↦ ?_, fun json json' r r' hr hr' hget ↦ ?_⟩
  · exact filter_violations_of_agreeOn hgroup ⟨hdate, htime, hget⟩
  · -- Between the two stands the second request with the pattern for dates of the first one.
    let between : Request := { r' with datePattern := r.datePattern }
    have hformat : Parameter.timeFormat ≠ Parameter.dateFormat := by decide
    have htime := timePattern_eq_of_get? hr hr' (hget _ hformat)
    have hbetween : r.violations policy mode = between.violations policy mode := by
      refine violations_eq_of_agreeOn fun group hgroup ↦ ⟨rfl, htime, fun name hname ↦ hget name ?_⟩
      rintro rfl
      exact dateFormat_not_mem_group hgroup hname
    rw [hbetween]
    exact filter_violations_withDatePattern r' r.datePattern

/-- An event that ends before it starts: that is found whatever the title and the flag are.  A blank
title is found under any pattern for dates. -/
theorem filter_violations_eq_of_agree_early_end :
    let policy : RequestPolicy := {}
    let group := [Parameter.startDate, Parameter.endDate]
    let range := [(Parameter.startDate, Json.text "2024-02-01"),
      (Parameter.endDate, Json.text "2024-01-01")]
    let fields := (Parameter.title, Json.text "") :: range
    let fields' := (Parameter.title, Json.text "Meeting") ::
      (Parameter.repeating, Json.text "maybe") :: range
    let reformatted := (Parameter.dateFormat, Json.text "dd/MM/yyyy") :: fields
    ∃ dates days times : Pattern,
      ((group ∈ Parameter.groups ∧ ∀ name ∈ group, fields.lookup name = fields'.lookup name) ∧
        (violations policy .create ⟨fields, dates, times⟩).filter (·.parameter ∈ group) =
          (violations policy .create ⟨fields', dates, times⟩).filter (·.parameter ∈ group)) ∧
      (ofJson policy (.object fields) = .ok ⟨fields, dates, times⟩ ∧
        ofJson policy (.object reformatted) = .ok ⟨reformatted, days, times⟩ ∧
        ∀ name, name ≠ Parameter.dateFormat → fields.lookup name = reformatted.lookup name) ∧
      (violations policy .create ⟨fields, dates, times⟩).filter (·.parameter ∉ Parameter.dates) =
        (violations policy .create ⟨reformatted, days, times⟩).filter
          (·.parameter ∉ Parameter.dates) := by
  intro policy group range fields fields' reformatted
  obtain ⟨dates, hdates⟩ : ∃ dates, Pattern.ofText "yyyy-MM-dd" = .ok dates :=
    Except.exists_eq_ok_of_isOk (by decide +kernel)
  obtain ⟨days, hdays⟩ : ∃ days, Pattern.ofText "dd/MM/yyyy" = .ok days :=
    Except.exists_eq_ok_of_isOk (by decide +kernel)
  obtain ⟨times, htimes⟩ : ∃ times, Pattern.ofText "HH:mm" = .ok times :=
    Except.exists_eq_ok_of_isOk (by decide +kernel)
  have hgroup : group ∈ Parameter.groups := by decide +kernel
  have hagree : ∀ name ∈ group, fields.lookup name = fields'.lookup name := by
    intro name hname
    simp only [group, List.mem_cons, List.not_mem_nil, or_false] at hname
    rcases hname with rfl | rfl
    · rfl
    · rfl
  have hfields : ofJson policy (.object fields) = .ok ⟨fields, dates, times⟩ := by
    have hpattern : patternText fields Parameter.dateFormat policy.defaultDatePattern =
      "yyyy-MM-dd" := by decide +kernel
    have htime : patternText fields Parameter.timeFormat policy.defaultTimePattern = "HH:mm" := by
      decide +kernel
    simp only [ofJson, ofFields, hpattern, htime, hdates, htimes]
    rfl
  have hreformatted : ofJson policy (.object reformatted) = .ok ⟨reformatted, days, times⟩ := by
    have hpattern : patternText reformatted Parameter.dateFormat policy.defaultDatePattern =
      "dd/MM/yyyy" := by decide +kernel
    have htime : patternText reformatted Parameter.timeFormat policy.defaultTimePattern =
      "HH:mm" := by decide +kernel
    simp only [ofJson, ofFields, hpattern, htime, hdays, htimes]
    rfl
  have hlookup : ∀ name, name ≠ Parameter.dateFormat →
      fields.lookup name = reformatted.lookup name := by
    intro name hname
    simp only [reformatted, List.lookup_cons, beq_false_of_ne hname]
  obtain ⟨hlocal, hformat⟩ := filter_violations_eq_of_agree policy .create
  exact ⟨dates, days, times, ⟨⟨hgroup, hagree⟩, hlocal group hgroup _ _ rfl rfl hagree⟩,
    ⟨hfields, hreformatted, hlookup⟩, hformat _ _ _ _ hfields hreformatted hlookup⟩

end Request

end MeetingCalendar
