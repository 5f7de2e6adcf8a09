import Mathlib.Data.List.Nodup
import MeetingCalendar.Proofs.Request.Independence
import MeetingCalendar.Proofs.Text

/-!
# What is found in one parameter

A chain of checks finds at most one violation, and a section mostly runs one chain for each of its
parameters, so a request has at most one violation of each parameter.  Two parameters are looked at
outside their chains as well.  The end date is compared with the start date, but only when both are
dates, and then its chain has found nothing.  The last weekday of the month is refused beside the
place of a weekday whatever its own chain has found, so it can have two violations.

The value that is reported with a violation is the one in the request, or null for a parameter that
is not there, is null or is a blank text.
-/

namespace MeetingCalendar

/-! ## Reported values -/

namespace Json

/-- A field has nothing in it: it is absent, null or a blank text. -/
def IsVacant (found : Option Json) : Prop :=
  found = none ∨ found = some .null ∨ ∃ s, Text.isBlank s = true ∧ found = some (.text s)

/-- A value is reported for a field: the value of the field, or null if nothing is in it. -/
def Reports (found : Option Json) (value : Json) : Prop :=
  value ≠ .null ∧ found = some value ∨ value = .null ∧ IsVacant found

/-- A reader takes no value for blank but a blank text. -/
def ReadsBlank {α : Type} (parse : Json → Parsed α) : Prop :=
  ∀ value, parse value = .blank → ∃ s, Text.isBlank s = true ∧ value = .text s

theorem ofOption_ne_blank {α : Type} (found : Option α) : Parsed.ofOption found ≠ .blank := by
  cases found with
  | none => exact nofun
  | some v => exact nofun

/-- Readers of texts that are not taken as such begin with a test for blanks. -/
theorem isBlank_of_ite_eq_blank {α : Type} {s : String} {parsed : Parsed α}
    (hparsed : parsed ≠ .blank) (h : (if Text.isBlank s then .blank else parsed) = .blank) :
    Text.isBlank s = true := by
  by_contra hblank
  rw [if_neg hblank] at h
  exact hparsed h

theorem readsBlank_asText : ReadsBlank asText := by
  intro value h
  cases value with
  | text s => cases h
  | _ =>
    unfold asText at h
    exact absurd h (ofOption_ne_blank _)

theorem readsBlank_asInteger : ReadsBlank asInteger := by
  intro value h
  cases value with
  | text s => exact ⟨s, isBlank_of_ite_eq_blank (ofOption_ne_blank _) h, rfl⟩
  | _ =>
    unfold asInteger at h
    exact absurd h (ofOption_ne_blank _)

theorem readsBlank_asIntegers : ReadsBlank asIntegers := by
  intro value h
  have hblank (hmap : (asInteger value).map ([·]) = .blank) : asInteger value = .blank := by
    cases hvalue : asInteger value with
    | blank => rfl
    | value n => rw [hvalue] at hmap; cases hmap
    | invalid => rw [hvalue] at hmap; cases hmap
  cases value with
  | array items => exact absurd h (ofOption_ne_blank _)
  | _ => exact readsBlank_asInteger _ (hblank h)

theorem readsBlank_asBoolean : ReadsBlank asBoolean := by
  intro value h
  cases value with
  | text s =>
    rw [asBoolean] at h
    split at h
    · next hempty =>
      have hmap : (Text.trimChars s.toList).map Char.toLower = [] :=
        String.ofList_eq_empty_iff.mp hempty
      exact ⟨s, Text.isBlank_of_trimChars_eq_nil (List.map_eq_nil_iff.mp hmap), rfl⟩
    · cases h
    · cases h
    · cases h
  | bool b => cases h
  | _ => cases h

theorem readsBlank_asDate (pattern : Pattern) : ReadsBlank (asDate pattern) := by
  intro value h
  cases value with
  | text s => exact ⟨s, isBlank_of_ite_eq_blank (ofOption_ne_blank _) h, rfl⟩
  | array parts => exact absurd h (ofOption_ne_blank _)
  | _ => cases h

theorem readsBlank_asTime (pattern : Pattern) : ReadsBlank (asTime pattern) := by
  intro value h
  cases value with
  | text s => exact ⟨s, isBlank_of_ite_eq_blank (ofOption_ne_blank _) h, rfl⟩
  | _ => cases h

end Json

namespace Reading

variable {α : Type}

/-- What a reading gives to report. -/
theorem reports_of {expected : Expected} {parse : Json → Parsed α} (hparse : Json.ReadsBlank parse)
    (found : Option Json) : Json.Reports found (Json.orNull (of expected parse found).raw?) := by
  cases found with
  | none => exact .inr ⟨rfl, .inl rfl⟩
  | some raw =>
    by_cases hnull : raw = .null
    · rw [hnull]
      exact .inr ⟨rfl, .inr (.inl rfl)⟩
    · rw [of_some hnull]
      cases hraw : parse raw with
      | blank =>
        obtain ⟨s, hblank, rfl⟩ := hparse raw hraw
        exact .inr ⟨rfl, .inr (.inr ⟨s, hblank, rfl⟩)⟩
      | value v => exact .inl ⟨hnull, rfl⟩
      | invalid => exact .inl ⟨hnull, rfl⟩

theorem expected_of_invalid {expected other : Expected} {parse : Json → Parsed α}
    {found : Option Json} {raw : Json} (h : of expected parse found = .invalid raw other) :
    other = expected := by
  cases found with
  | none => cases h
  | some value =>
    by_cases hnull : value = .null
    · rw [hnull] at h
      cases h
    · rw [of_some hnull] at h
      cases hvalue : parse value with
      | blank => rw [hvalue] at h; cases h
      | value v => rw [hvalue] at h; cases h
      | invalid => rw [hvalue] at h; cases h; rfl

end Reading

namespace Violation

/-- Two violations that a request may have in this order: they are of different parameters, or they
are both of the last weekday of the month, first for what it is and then because the place of a
weekday is there too. -/
def Compatible (v w : Violation) : Prop :=
  v.parameter = w.parameter →
    v.parameter = Parameter.repeatsOnLastWeekdayOfMonth ∧
      (v.constraint = .notWithinRange 1 7 ∨ v.constraint = .invalidInteger) ∧
      w.constraint = .mutuallyExclusive Parameter.repeatsOnNthDayOfMonth

/-- Compatible violations are not the same. -/
theorem Compatible.pair_ne {v w : Violation} (h : v.Compatible w) : v.pair ≠ w.pair := by
  intro heq
  have hconstraint : v.constraint = w.constraint := congrArg Prod.snd heq
  obtain ⟨-, hv, hw⟩ := h (congrArg Prod.fst heq)
  rw [hconstraint, hw] at hv
  exact hv.elim nofun nofun

/-- Of one parameter there is one violation in a list of compatible ones, or the two of the last
weekday of the month. -/
theorem length_le_one_of_compatible {violations : List Violation} {name : String}
    (h : violations.Pairwise Compatible) (hname : ∀ v ∈ violations, v.parameter = name) :
    violations.length ≤ 1 ∨ name = Parameter.repeatsOnLastWeekdayOfMonth ∧
      ∃ first second, violations = [first, second] ∧
        (first.constraint = .notWithinRange 1 7 ∨ first.constraint = .invalidInteger) ∧
        second.constraint = .mutuallyExclusive Parameter.repeatsOnNthDayOfMonth := by
  match violations, h with
  | [], _ => exact .inl (Nat.zero_le 1)
  | [_], _ => exact .inl le_rfl
  | first :: second :: rest, h =>
    right
    have hfirst : first.parameter = name := hname first (by simp)
    have hsecond : second.parameter = name := hname second (by simp)
    rw [List.pairwise_cons, List.pairwise_cons] at h
    obtain ⟨hhead, htail, -⟩ := h
    obtain ⟨hlast, hconstraint, hexclusive⟩ :=
      hhead second List.mem_cons_self (hfirst.trans hsecond.symm)
    -- A third violation would need a second one that is about the weekday itself.
    have hrest : rest = [] := by
      rw [List.eq_nil_iff_forall_not_mem]
      intro third hthird
      have hparameter : third.parameter = name := hname third (by simp [hthird])
      obtain ⟨-, hself, -⟩ := htail third hthird (hsecond.trans hparameter.symm)
      rw [hexclusive] at hself
      exact hself.elim nofun nofun
    subst hrest
    exact ⟨hfirst.symm.trans hlast, first, second, rfl, hconstraint, hexclusive⟩

end Violation

namespace Request

/-- The violations that are found in some parameters: any two of them are compatible, and each says
which value it found. -/
structure Findings (r : Request) (names : List String) (violations : List Violation) : Prop where
  parameter_mem : ∀ v ∈ violations, v.parameter ∈ names
  pairwise : violations.Pairwise Violation.Compatible
  reports : ∀ v ∈ violations, Json.Reports (r.get? v.parameter) v.value

variable {policy : RequestPolicy} {mode : Mode} {r : Request} {name : String}
  {names names' : List String} {violations violations' : List Violation}

/-! ## What is reported of each kind of parameter -/

theorem reports_text (r : Request) (name : String) :
    Json.Reports (r.get? name) (Json.orNull (r.text name).raw?) :=
  Reading.reports_of Json.readsBlank_asText _

theorem reports_integer (r : Request) (name : String) :
    Json.Reports (r.get? name) (Json.orNull (r.integer name).raw?) :=
  Reading.reports_of Json.readsBlank_asInteger _

theorem reports_integers (r : Request) (name : String) :
    Json.Reports (r.get? name) (Json.orNull (r.integers name).raw?) :=
  Reading.reports_of Json.readsBlank_asIntegers _

theorem reports_boolean (r : Request) (name : String) :
    Json.Reports (r.get? name) (Json.orNull (r.boolean name).raw?) :=
  Reading.reports_of Json.readsBlank_asBoolean _

theorem reports_date (r : Request) (name : String) :
    Json.Reports (r.get? name) (Json.orNull (r.date name).raw?) :=
  Reading.reports_of (Json.readsBlank_asDate _) _

theorem reports_time (r : Request) (name : String) :
    Json.Reports (r.get? name) (Json.orNull (r.time name).raw?) :=
  Reading.reports_of (Json.readsBlank_asTime _) _

/-! ## How findings are put together -/

namespace Findings

theorem nil : r.Findings names [] :=
  ⟨nofun, .nil, nofun⟩

theorem checkIf {applies : Bool} (h : r.Findings names violations) :
    r.Findings names (checkIf applies violations) := by
  cases applies with
  | true => exact h
  | false => exact nil

theorem single {value : Json} {constraint : Constraint} (h : Json.Reports (r.get? name) value) :
    r.Findings [name] [⟨name, value, constraint⟩] where
  parameter_mem := by simp
  pairwise := List.pairwise_singleton _ _
  reports := by simpa using h

theorem ofChecks {α : Type} {reading : Reading α} {checks : List (Check α)}
    (h : Json.Reports (r.get? name) (Json.orNull reading.raw?)) :
    r.Findings [name] (Violation.ofChecks name reading checks) := by
  unfold Violation.ofChecks
  cases (Chain.run reading checks).constraint? with
  | none => exact nil
  | some constraint => exact single h

theorem subset (h : r.Findings names violations) (hsubset : names ⊆ names') :
    r.Findings names' violations :=
  ⟨fun v hv ↦ hsubset (h.parameter_mem v hv), h.pairwise, h.reports⟩

/-- Findings go together if the second ones may come after the first ones. -/
theorem append_of_compatible (h : r.Findings names violations)
    (h' : r.Findings names' violations')
    (hcompatible : ∀ v ∈ violations, ∀ w ∈ violations', v.Compatible w) :
    r.Findings (names ++ names') (violations ++ violations') where
  parameter_mem v hv := by
    rcases List.mem_append.mp hv with hv | hv
    · exact List.mem_append_left _ (h.parameter_mem v hv)
    · exact List.mem_append_right _ (h'.parameter_mem v hv)
  pairwise := List.pairwise_append.mpr ⟨h.pairwise, h'.pairwise, hcompatible⟩
  reports v hv := (List.mem_append.mp hv).elim (h.reports v) (h'.reports v)

/-- Findings in different parameters go together. -/
theorem append (h : r.Findings names violations) (h' : r.Findings names' violations')
    (hdisjoint : ∀ name ∈ names, name ∉ names') :
    r.Findings (names ++ names') (violations ++ violations') := by
  apply h.append_of_compatible h'
  intro v hv w hw heq
  have hmem : v.parameter ∈ names' := heq ▸ h'.parameter_mem w hw
  exact absurd hmem (hdisjoint _ (h.parameter_mem v hv))

end Findings

/-! ## The sections -/

theorem findings_flagViolations : r.Findings [name] (r.flagViolations name) :=
  .checkIf (.ofChecks (r.reports_boolean name))

theorem findings_dateViolations : r.Findings [name] (r.dateViolations name) :=
  .ofChecks (r.reports_date name)

theorem findings_rescheduleViolations :
    r.Findings Parameter.rescheduleGroup r.rescheduleViolations := by
  have hdate (name : String) : r.Findings [name]
      (checkIf (r.isSet Parameter.rescheduleBasedOnMeetingDates || r.has name)
        (r.dateViolations name)) :=
    .checkIf findings_dateViolations
  have hflag : r.Findings [Parameter.rescheduleBasedOnMeetingDates] _ := findings_flagViolations
  have hnone : r.Findings [] [] := .nil
  have hdates := (hdate Parameter.presentMeetingDate).append
    ((hdate Parameter.newMeetingDate).append hnone (by decide)) (by decide)
  exact hflag.append hdates (by decide)

theorem findings_titleViolations :
    r.Findings [Parameter.title] (r.titleViolations policy mode) :=
  .checkIf (.ofChecks (r.reports_text _))

theorem findings_optionalTextViolations {max : Nat} :
    r.Findings [name] (r.optionalTextViolations name max) :=
  .checkIf (.ofChecks (r.reports_text name))

theorem findings_orderViolations : r.Findings [Parameter.endDate] r.orderViolations := by
  have hreports := r.reports_date Parameter.endDate
  unfold orderViolations
  split
  · next hstop =>
    rw [hstop] at hreports
    split
    · exact .single hreports
    · exact .nil
  · exact .nil

/-- The dates are compared only if the end date is one, and then nothing else is found in it. -/
theorem findings_endDate :
    r.Findings [Parameter.endDate] (r.dateViolations Parameter.endDate ++ r.orderViolations) := by
  by_cases horder : r.orderViolations = []
  · rw [horder, List.append_nil]
    exact findings_dateViolations
  · have hend : r.dateViolations Parameter.endDate = [] := by
      rw [dateViolations_eq_nil_iff]
      unfold orderViolations at horder
      split at horder
      · next hstop => exact ⟨_, Reading.value?_eq_some_iff.mpr ⟨_, hstop⟩⟩
      · exact absurd rfl horder
    rw [hend, List.nil_append]
    exact findings_orderViolations

theorem findings_dateRangeViolations :
    r.Findings [Parameter.startDate, Parameter.endDate] (r.dateRangeViolations mode) := by
  have hstart : r.Findings [Parameter.startDate]
      (checkIf (r.isChecked mode Parameter.startDate) (r.dateViolations Parameter.startDate)) :=
    .checkIf findings_dateViolations
  exact hstart.append findings_endDate.checkIf (by decide)

theorem findings_durationViolations : r.Findings [Parameter.duration] r.durationViolations :=
  .checkIf (.ofChecks (r.reports_integer _))

theorem findings_typeViolations : r.Findings [Parameter.typeId] (r.typeViolations mode) :=
  .checkIf (.ofChecks (r.reports_integer _))

theorem findings_frequencyViolations :
    r.Findings [Parameter.frequency, Parameter.interval] r.frequencyViolations := by
  have hfrequency : r.Findings [Parameter.frequency] (Violation.ofChecks Parameter.frequency
      (r.integer Parameter.frequency) [Check.notNull, Check.inRangeOf Frequency]) :=
    .ofChecks (r.reports_integer _)
  exact hfrequency.append (.checkIf (.ofChecks (r.reports_integer _))) (by decide)

theorem findings_weeklyViolations :
    r.Findings [Parameter.repeatsOnDay] (r.weeklyViolations mode) :=
  .checkIf (.ofChecks (r.reports_integers _))

/-- What the chain of an optional code finds is about the code itself. -/
theorem constraint_of_mem_optionalCode {α : Type} [Coded α] {v : Violation}
    (h : v ∈ Violation.ofChecks name (r.integer name) [Check.ignoreIfNull, Check.inRangeOf α]) :
    v.constraint = .notWithinRange (Coded.minCode α) (Coded.maxCode α) ∨
      v.constraint = .invalidInteger := by
  obtain ⟨check, hcheck, hfail⟩ := Violation.exists_check_of_mem_ofChecks h
  rcases List.mem_pair.mp hcheck with rfl | rfl
  · exact absurd hfail Check.ignoreIfNull_ne_fail
  · rcases Check.constraint_of_satisfies hfail with howner | ⟨raw, expected, hinvalid, hkind⟩
    · exact .inl howner
    · right
      rw [hkind, Reading.expected_of_invalid hinvalid]
      rfl

theorem findings_exclusionViolations :
    r.Findings [Parameter.repeatsOnLastWeekdayOfMonth] r.exclusionViolations :=
  .checkIf (.single (r.reports_integer _))

/-- What the chain of the last weekday finds may come before the exclusion. -/
theorem compatible_of_mem_exclusionViolations {v w : Violation}
    (hv : v ∈ Violation.ofChecks Parameter.repeatsOnLastWeekdayOfMonth
      (r.integer Parameter.repeatsOnLastWeekdayOfMonth)
      [Check.ignoreIfNull, Check.inRangeOf Weekday])
    (hw : w ∈ r.exclusionViolations) : v.Compatible w := by
  intro _
  have hchain : v.constraint = .notWithinRange 1 7 ∨ v.constraint = .invalidInteger :=
    constraint_of_mem_optionalCode hv
  refine ⟨Violation.parameter_of_mem_ofChecks hv, hchain, ?_⟩
  rw [List.mem_singleton.mp (mem_checkIf.mp hw).2]

theorem findings_lastWeekday :
    r.Findings [Parameter.repeatsOnLastWeekdayOfMonth]
      (Violation.ofChecks Parameter.repeatsOnLastWeekdayOfMonth
          (r.integer Parameter.repeatsOnLastWeekdayOfMonth)
          [Check.ignoreIfNull, Check.inRangeOf Weekday] ++
        r.exclusionViolations) := by
  have hboth := (Findings.ofChecks (r.reports_integer _)).append_of_compatible
    findings_exclusionViolations fun _ hv _ hw ↦ compatible_of_mem_exclusionViolations hv hw
  exact hboth.subset (by decide)

theorem findings_monthlyViolations :
    r.Findings [Parameter.repeatsOnNthDayOfMonth, Parameter.repeatsOnLastWeekdayOfMonth,
      Parameter.repeatsOnDay] r.monthlyViolations := by
  have hnth : r.Findings [Parameter.repeatsOnNthDayOfMonth]
      (Violation.ofChecks Parameter.repeatsOnNthDayOfMonth
        (r.integer Parameter.repeatsOnNthDayOfMonth)
        [Check.ignoreIfNull, Check.inRangeOf Ordinal]) :=
    .ofChecks (r.reports_integer _)
  have hday : r.Findings [Parameter.repeatsOnDay]
      (checkIf ((r.integer Parameter.repeatsOnNthDayOfMonth).value?.any (Coded.accepts Ordinal))
        (Violation.ofChecks Parameter.repeatsOnDay (r.integer Parameter.repeatsOnDay)
          [Check.notNull, Check.inRangeOf Weekday])) :=
    .checkIf (.ofChecks (r.reports_integer _))
  have hplaces := hnth.append findings_lastWeekday (by decide)
  rw [← List.append_assoc] at hplaces
  exact hplaces.append hday (by decide)

theorem findings_repeatDayViolations :
    r.Findings [Parameter.repeatsOnNthDayOfMonth, Parameter.repeatsOnLastWeekdayOfMonth,
      Parameter.repeatsOnDay] (r.repeatDayViolations mode) := by
  unfold repeatDayViolations
  split
  · exact findings_weeklyViolations.subset (by decide)
  · exact findings_monthlyViolations
  · exact .nil

theorem findings_repeatViolations :
    r.Findings Parameter.repeatGroup (r.repeatViolations mode) := by
  have hflag : r.Findings [Parameter.repeating] (r.flagViolations Parameter.repeating) :=
    findings_flagViolations
  have hdays : r.Findings _ (r.repeatDayViolations mode) := findings_repeatDayViolations
  have hrule : r.Findings _ (checkIf (r.isSet Parameter.repeating)
      (r.frequencyViolations ++ r.repeatDayViolations mode)) :=
    .checkIf (findings_frequencyViolations.append hdays (by decide))
  exact (hflag.append hrule (by decide)).subset (by decide)

theorem findings_remindByViolations : r.Findings [Parameter.remindById] r.remindByViolations :=
  .checkIf (.ofChecks (r.reports_integer _))

theorem findings_offsetViolations : r.Findings [name] (r.offsetViolations policy mode name) :=
  .checkIf (.ofChecks (r.reports_integer name))

theorem findings_meetingTimeViolations :
    r.Findings [Parameter.meetingTime] r.meetingTimeViolations :=
  .checkIf (.ofChecks (r.reports_time _))

theorem findings_of_mem_sections {part : List String × (Request → List Violation)}
    (h : part ∈ sections policy mode) : r.Findings part.1 (part.2 r) := by
  revert part
  simp only [sections, List.forall_mem_cons, List.not_mem_nil, false_implies, implies_true,
    and_true]
  exact ⟨findings_rescheduleViolations.checkIf, findings_titleViolations,
    findings_optionalTextViolations, findings_optionalTextViolations, findings_dateRangeViolations,
    findings_durationViolations, findings_typeViolations, findings_repeatViolations,
    findings_remindByViolations, findings_offsetViolations, findings_offsetViolations,
    findings_meetingTimeViolations⟩

/-- Sections find fault with different parameters, so what they find goes together. -/
theorem pairwise_violations : (r.violations policy mode).Pairwise Violation.Compatible := by
  rw [violations_eq_flatMap, List.pairwise_flatMap]
  refine ⟨fun part hpart ↦ (findings_of_mem_sections hpart).pairwise, ?_⟩
  apply (List.pairwise_map.mp nodup_map_fst_sections).imp_of_mem
  intro part other hpart hother hne v hv w hw heq
  have hmem : v.parameter ∈ part.1 := (findings_of_mem_sections hpart).parameter_mem v hv
  have hnotmem : w.parameter ∉ part.1 :=
    not_mem_of_mem_group (fst_mem_groups hpart) (fst_mem_groups hother) hne.symm
      ((findings_of_mem_sections hother).parameter_mem w hw)
  exact absurd (heq ▸ hmem) hnotmem

theorem reports_of_mem_violations {v : Violation} (h : v ∈ r.violations policy mode) :
    Json.Reports (r.get? v.parameter) v.value := by
  rw [violations_eq_flatMap] at h
  obtain ⟨part, hpart, hv⟩ := List.mem_flatMap.mp h
  exact (findings_of_mem_sections hpart).reports v hv

/-- What is found in a request.  No parameter is found to break a constraint twice.  A parameter has
one violation at most, but the last weekday of the month may have two: for what it is, and then for
standing beside the place of a weekday.  The value that is reported is the one in the request, or
null for a parameter that is absent, null or a blank text. -/
theorem violations_wellFormed (policy : RequestPolicy) (mode : Mode) (r : Request) :
    ((r.violations policy mode).map Violation.pair).Nodup ∧
    (∀ name, ((Report.calendar (r.violations policy mode)).forParameter name).length ≤ 1 ∨
      name = Parameter.repeatsOnLastWeekdayOfMonth ∧ ∃ first second,
        (Report.calendar (r.violations policy mode)).forParameter name = [first, second] ∧
        (first.constraint = .notWithinRange 1 7 ∨ first.constraint = .invalidInteger) ∧
        second.constraint = .mutuallyExclusive Parameter.repeatsOnNthDayOfMonth) ∧
    ∀ v ∈ r.violations policy mode,
      (r.get? v.parameter = some v.value ∨ v.value = .null) ∧
      (v.value = .null → r.get? v.parameter = none ∨ r.get? v.parameter = some .null ∨
        ∃ s, Text.isBlank s = true ∧ r.get? v.parameter = some (.text s)) := by
  have hpairwise : (r.violations policy mode).Pairwise Violation.Compatible := pairwise_violations
  refine ⟨?_, fun name ↦ ?_, fun v hv ↦ ?_⟩
  · apply List.pairwise_map.mpr
    exact hpairwise.imp Violation.Compatible.pair_ne
  · apply Violation.length_le_one_of_compatible
    · exact hpairwise.sublist List.filter_sublist
    · intro v hv
      simpa using (List.mem_filter.mp hv).2
  · rcases reports_of_mem_violations hv with ⟨hne, hvalue⟩ | ⟨hnull, hvacant⟩
    · exact ⟨.inl hvalue, fun hnull ↦ absurd hnull hne⟩
    · exact ⟨.inr hnull, fun _ ↦ hvacant⟩

/-- The last weekday of the month can have both violations. -/
example :
    let body := "\x7b\"repeating\": true, \"frequency\": 3, \"repeatsOnNthDayOfMonth\": 1, " ++
      "\"repeatsOnLastWeekdayOfMonth\": 9, \"repeatsOnDay\": 1\x7d"
    (ofBody {} body).toOption.map (fun r ↦ (r.violations {} .update).map Violation.pair) =
      some [(Parameter.repeatsOnLastWeekdayOfMonth, .notWithinRange 1 7),
        (Parameter.repeatsOnLastWeekdayOfMonth,
          .mutuallyExclusive Parameter.repeatsOnNthDayOfMonth)] := by
  decide +kernel

end Request

end MeetingCalendar
