import MeetingCalendar.Event.Request
import MeetingCalendar.Proofs.Coded
import MeetingCalendar.Proofs.Except
import MeetingCalendar.Proofs.Recurrence.Patch
import MeetingCalendar.Proofs.Request.Validity

/-!
# Recurrences in requests

What a request says of repeating is read by other rules than those by which it is checked.  The two
fit together: if the checks pass, then the parts can be read, and they are usable.
-/

namespace MeetingCalendar

namespace Request

variable {r : Request} {mode : Mode}

/-! ## Codes -/

theorem repeatChoice_eq_ok_iff {α : Type} [Coded α] {name : String} {code : Int} {v : α} :
    repeatChoice α name code = .ok v ↔ Coded.accepted? α code = some v := by
  unfold repeatChoice
  cases Coded.accepted? α code <;> simp

theorem exists_repeatChoice {α : Type} [Coded α] [Coded.Complete α] (name : String) {code : Int}
    (h : Coded.accepts α code = true) : ∃ v : α, repeatChoice α name code = .ok v := by
  obtain ⟨v, hv⟩ := Coded.exists_accepted?_iff.mpr h
  exact ⟨v, repeatChoice_eq_ok_iff.mpr hv⟩

/-! ## The parts -/

theorem frequency?_of_valid (h : r.ValidRecurrence mode) :
    ∃ frequency, r.codedFrequency? = some frequency ∧ r.frequency? = .ok (some frequency) := by
  obtain ⟨n, hn, haccepts⟩ := h.frequency
  obtain ⟨frequency, hfrequency⟩ := exists_repeatChoice Parameter.frequency haccepts
  have haccepted := repeatChoice_eq_ok_iff.mp hfrequency
  refine ⟨frequency, ?_, ?_⟩
  · rw [codedFrequency?, hn]
    exact (Coded.accepted?_eq_some_iff.mp haccepted).2
  · rw [frequency?, hn]
    exact Except.map_eq_ok_iff.mpr ⟨frequency, hfrequency, rfl⟩

theorem interval?_of_valid (h : r.ValidRecurrence mode) :
    ∃ interval, r.interval? = .ok interval ∧
      ∀ n, interval = some n → 0 < n ∧ n ≤ Recurrence.maxInterval := by
  cases hvalue : (r.integer Parameter.interval).value? with
  | none => exact ⟨none, by rw [interval?, hvalue], nofun⟩
  | some n =>
    obtain ⟨m, hm, hpos, hle⟩ := h.interval (has_of_value? (r.isAbsent_integer _) hvalue)
    obtain rfl : n = m := Option.some.inj (hvalue.symm.trans hm)
    have hmax : Recurrence.maxInterval ≤ Text.maxNat32 := by decide
    refine ⟨some n.toNat, ?_, ?_⟩
    · rw [interval?, hvalue]
      exact if_pos (by omega)
    · rintro _ ⟨⟩
      omega

theorem weekdays?_of_valid (h : r.ValidRecurrence mode)
    (hweekly : r.codedFrequency? = some .weekly) :
    ∃ weekdays, r.weekdays? = .ok weekdays ∧
      ∀ days, weekdays = some days → days.isEmpty = false := by
  cases hvalue : (r.integers Parameter.repeatsOnDay).value? with
  | none => exact ⟨none, by rw [weekdays?, hvalue], nofun⟩
  | some codes =>
    have hchecked : r.isChecked mode Parameter.repeatsOnDay = true := by
      rw [isChecked, has_of_value? (r.isAbsent_integers _) hvalue, Bool.or_true]
    obtain ⟨codes', hcodes, hne, haccepts⟩ := h.weekly hweekly hchecked
    obtain rfl : codes = codes' := Option.some.inj (hvalue.symm.trans hcodes)
    obtain ⟨days, hdays, hlength⟩ := Except.exists_mapM_eq_ok fun code hcode ↦
      exists_repeatChoice Parameter.repeatsOnDay (haccepts code hcode)
    refine ⟨some (.ofList days), ?_, ?_⟩
    · rw [weekdays?, hvalue]
      exact Except.bind_eq_ok_iff.mpr ⟨days, hdays, rfl⟩
    · rintro _ ⟨⟩
      obtain ⟨day, hday⟩ : ∃ day, day ∈ days := by
        apply List.exists_mem_of_length_pos
        rw [hlength]
        exact List.length_pos_iff.mpr hne
      exact WeekdaySet.isEmpty_eq_false_of_mem (WeekdaySet.mem_ofList.mpr hday)

theorem monthlyDay?_of_valid (h : r.ValidMonthlyDay) : ∃ day, r.monthlyDay? = .ok day := by
  unfold monthlyDay?
  rcases h.nth with hnth | ⟨place, hplace, haccepts⟩
  · rw [Reading.value?_of_isMissing hnth]
    rcases h.last with hlast | ⟨code, hcode, haccepts⟩
    · rw [Reading.value?_of_isMissing hlast]
      exact ⟨none, rfl⟩
    · rw [hcode]
      obtain ⟨weekday, hweekday⟩ :=
        exists_repeatChoice Parameter.repeatsOnLastWeekdayOfMonth haccepts
      exact ⟨some (.last weekday), Except.bind_eq_ok_iff.mpr ⟨weekday, hweekday, rfl⟩⟩
  · have hlast : (r.integer Parameter.repeatsOnLastWeekdayOfMonth).isMissing = true := by
      refine h.exclusive.resolve_left fun hmissing ↦ ?_
      rw [Reading.value?_of_isMissing hmissing] at hplace
      cases hplace
    obtain ⟨code, hcode, hcodeAccepts⟩ := h.weekday place hplace haccepts
    obtain ⟨ordinal, hordinal⟩ := exists_repeatChoice Parameter.repeatsOnNthDayOfMonth haccepts
    obtain ⟨weekday, hweekday⟩ := exists_repeatChoice Parameter.repeatsOnDay hcodeAccepts
    rw [hplace, Reading.value?_of_isMissing hlast, hcode]
    refine ⟨some (.nth ordinal weekday), Except.bind_eq_ok_iff.mpr ⟨ordinal, hordinal, ?_⟩⟩
    exact Except.bind_eq_ok_iff.mpr ⟨weekday, hweekday, rfl⟩

/-- A request cannot name a fifth weekday. -/
theorem ne_fifth_of_monthlyDay? {day : MonthlyDay} (h : r.monthlyDay? = .ok (some day))
    (weekday : Weekday) : day ≠ .nth .fifth weekday := by
  rintro rfl
  unfold monthlyDay? at h
  generalize (r.integer Parameter.repeatsOnNthDayOfMonth).value? = nth at h
  generalize (r.integer Parameter.repeatsOnLastWeekdayOfMonth).value? = last at h
  generalize (r.integer Parameter.repeatsOnDay).value? = code at h
  cases nth with
  | none =>
    cases last with
    | none => cases h
    | some last =>
      obtain ⟨w, -, h⟩ := Except.bind_eq_ok_iff.mp h
      cases h
  | some place =>
    cases last with
    | some last => cases h
    | none =>
      obtain ⟨ordinal, hordinal, h⟩ := Except.bind_eq_ok_iff.mp h
      have hne := Ordinal.ne_fifth_of_accepted? (repeatChoice_eq_ok_iff.mp hordinal)
      cases code with
      | none => cases h
      | some code =>
        obtain ⟨w, -, h⟩ := Except.bind_eq_ok_iff.mp h
        cases h
        exact hne rfl

/-! ## The patch -/

/-- The parts of a patch are read one after the other. -/
theorem recurrencePatch_eq (r : Request) :
    r.recurrencePatch = r.frequency? >>= fun frequency ↦ r.interval? >>= fun interval ↦
      (if frequency = some .weekly then r.weekdays? else .ok none) >>= fun weekdays ↦
        (if frequency = some .monthly then r.monthlyDay? else .ok none) >>= fun monthlyDay ↦
          .ok { frequency, interval, weekdays, monthlyDay } := by
  unfold recurrencePatch
  apply bind_congr
  intro frequency
  apply bind_congr
  intro interval
  by_cases hweekly : frequency = some .weekly
  · rw [if_pos hweekly, if_pos hweekly]
    by_cases hmonthly : frequency = some .monthly
    · simp only [if_pos hmonthly]
      rfl
    · simp only [if_neg hmonthly]
      rfl
  · rw [if_neg hweekly, if_neg hweekly]
    by_cases hmonthly : frequency = some .monthly
    · simp only [if_pos hmonthly]
      rfl
    · simp only [if_neg hmonthly]
      rfl

theorem recurrencePatch_eq_ok_iff {patch : RecurrencePatch} :
    r.recurrencePatch = .ok patch ↔
      r.frequency? = .ok patch.frequency ∧ r.interval? = .ok patch.interval ∧
        (if patch.frequency = some .weekly then r.weekdays? else .ok none) = .ok patch.weekdays ∧
        (if patch.frequency = some .monthly then r.monthlyDay? else .ok none) =
          .ok patch.monthlyDay := by
  rw [recurrencePatch_eq]
  simp only [Except.bind_eq_ok_iff, Except.ok.injEq]
  constructor
  · rintro ⟨frequency, hfrequency, interval, hinterval, weekdays, hweekdays, day, hday, rfl⟩
    exact ⟨hfrequency, hinterval, hweekdays, hday⟩
  · rintro ⟨hfrequency, hinterval, hweekdays, hday⟩
    exact ⟨_, hfrequency, _, hinterval, _, hweekdays, _, hday, rfl⟩

theorem ne_fifth_of_recurrencePatch {patch : RecurrencePatch} (h : r.recurrencePatch = .ok patch)
    (weekday : Weekday) : patch.monthlyDay ≠ some (.nth .fifth weekday) := by
  intro hday
  obtain ⟨-, -, -, hmonthly⟩ := recurrencePatch_eq_ok_iff.mp h
  rw [hday] at hmonthly
  split at hmonthly
  · exact ne_fifth_of_monthlyDay? hmonthly weekday rfl
  · cases hmonthly

/-- What a valid request says of repeating can be read as a usable patch. -/
theorem recurrencePatch_of_valid (h : r.ValidRecurrence mode) :
    ∃ patch, r.recurrencePatch = .ok patch ∧ patch.frequency = r.codedFrequency? ∧
      patch.Usable := by
  obtain ⟨frequency, hcoded, hfrequency⟩ := frequency?_of_valid h
  obtain ⟨interval, hinterval, hbounds⟩ := interval?_of_valid h
  obtain ⟨weekdays, hweekdays, hdays⟩ : ∃ weekdays,
      (if some frequency = some .weekly then r.weekdays? else .ok none) = .ok weekdays ∧
        ∀ days, weekdays = some days → days.isEmpty = false := by
    by_cases hweekly : some frequency = some Frequency.weekly
    · rw [if_pos hweekly]
      exact weekdays?_of_valid h (hcoded.trans hweekly)
    · rw [if_neg hweekly]
      exact ⟨none, rfl, nofun⟩
  obtain ⟨day, hday⟩ : ∃ day,
      (if some frequency = some .monthly then r.monthlyDay? else .ok none) = .ok day := by
    by_cases hmonthly : some frequency = some Frequency.monthly
    · rw [if_pos hmonthly]
      exact monthlyDay?_of_valid (h.monthly (hcoded.trans hmonthly))
    · rw [if_neg hmonthly]
      exact ⟨none, rfl⟩
  have hpatch : r.recurrencePatch = .ok ⟨some frequency, interval, weekdays, day⟩ :=
    recurrencePatch_eq_ok_iff.mpr ⟨hfrequency, hinterval, hweekdays, hday⟩
  exact ⟨_, hpatch, hcoded.symm, hbounds, hdays, ne_fifth_of_recurrencePatch hpatch⟩

/-- A valid request to create a repeating event says how it repeats. -/
theorem recurrence_of_valid (h : r.ValidRecurrence mode) (start : Date) :
    ∃ recurrence, r.recurrence start = .ok recurrence := by
  obtain ⟨patch, hpatch, hfrequency, husable⟩ := recurrencePatch_of_valid h
  obtain ⟨frequency, hcoded, -⟩ := frequency?_of_valid h
  obtain ⟨recurrence, hmake⟩ := husable.exists_make none start
  refine ⟨recurrence, Except.bind_eq_ok_iff.mpr ⟨patch, hpatch, ?_⟩⟩
  rw [hfrequency, hcoded]
  simpa using hmake

end Request

end MeetingCalendar
