import MeetingCalendar.Proofs.Coded
import MeetingCalendar.Proofs.Occurrence.Expansion
import MeetingCalendar.Recurrence.Anchor

/-!
# Anchored recurrences

A recurrence that is anchored on a date keeps its unit and its interval and gets a first date there:
anchoring makes every pattern select the date, except for that of a last weekday, which keeps its
kind and so selects the date only in the last seven days of a month.  A recurrence that falls on the
date already stays as it is, from whatever seed it does so.  The only ones that change are those
that cannot stay: a week with more than one weekday keeps only that of the date, and a fifth
weekday, which most months do not have, becomes the last one.
-/

namespace MeetingCalendar

/-! ## Anchored patterns select their date -/

theorem Date.weekdayPlace_eq_of_ofDay? {d : Date} {ordinal : Ordinal}
    (h : Ordinal.ofDay? d.day = some ordinal) : d.weekdayPlace = ordinal.number := by
  have hpos := d.day_pos
  unfold weekdayPlace
  generalize d.day = day at h hpos
  cases day with
  | zero => omega
  | succ day =>
    rw [Ordinal.ofDay?] at h
    rw [Nat.add_sub_cancel]
    generalize day / 7 + 1 = place at h
    revert h
    unfold Ordinal.ofNumber?
    split <;> simp <;> rintro rfl <;> rfl

/-- A date in the fifth week of its month is the last of its name. -/
theorem Date.isLastWeekday_of_four_lt {d : Date} (h : 4 < d.weekdayPlace) : d.IsLastWeekday := by
  have hle := daysInMonth_le d.year d.month
  unfold weekdayPlace at h
  unfold IsLastWeekday
  omega

theorem Ordinal.exists_ofDay? (d : Date) : ∃ ordinal, Ordinal.ofDay? d.day = some ordinal := by
  have hall : ∀ day, day < 32 → 1 ≤ day → (Ordinal.ofDay? day).isSome = true := by decide
  have hle := Nat.le_trans d.day_le (daysInMonth_le d.year d.month)
  exact Option.isSome_iff_exists.mp (hall d.day (Nat.lt_succ_of_le hle) d.day_pos)

/-- Anchoring a monthly day on a date makes it select that date, unless it is a last weekday and the
date is not. -/
theorem MonthlyDay.selects_anchoredOn_iff {choice : MonthlyDay} {d : Date} :
    (choice.anchoredOn d).Selects d.day d ↔
      ∀ weekday, choice = .last weekday → d.IsLastWeekday := by
  cases choice with
  | sameDay => simp [anchoredOn, Selects]
  | last weekday => simp [anchoredOn, Selects]
  | nth ordinal weekday =>
    obtain ⟨found, hfound⟩ := Ordinal.exists_ofDay? d
    have hplace := Date.weekdayPlace_eq_of_ofDay? hfound
    simp only [anchoredOn, hfound, reduceCtorEq, false_implies, implies_true, iff_true]
    cases found with
    | fifth =>
      refine ⟨rfl, Date.isLastWeekday_of_four_lt ?_⟩
      rw [hplace]
      decide
    | _ => exact ⟨rfl, hplace⟩

theorem Repeat.selects_anchoredOn_iff {pattern : Repeat} {d : Date} :
    (pattern.anchoredOn d).Selects d d ↔
      ∀ weekday, pattern = .monthly (.last weekday) → d.IsLastWeekday := by
  cases pattern with
  | daily => simp [anchoredOn, Selects]
  | weekly days => simp [anchoredOn, Selects, WeekdaySet.singleton]
  | monthly choice =>
    simp only [anchoredOn, Selects, MonthlyDay.selects_anchoredOn_iff, Repeat.monthly.injEq]
  | yearly => simp [anchoredOn, Selects]

/-! ## Schedules fall on their seed -/

namespace Schedule

/-- A schedule falls on its seed when its pattern selects the seed, in every year. -/
theorem occurs_seed_iff {s : Schedule} :
    s.Occurs s.seed ↔ s.recurrence.pattern.Selects s.seed s.seed := by
  constructor
  · rintro ⟨k, -, hd⟩
    exact (mem_datesAt_iff.mp hd).1.2
  · intro hselects
    refine ⟨0, ?_, mem_datesAt_iff.mpr ⟨⟨?_, hselects⟩, Date.le_refl _⟩⟩
    · simp [reaches, yearAt]
    · rw [unitAt_zero]
      rfl

theorem seed_le_of_occurs {s : Schedule} {d : Date} (h : s.Occurs d) : s.seed ≤ d := by
  obtain ⟨k, -, hd⟩ := h
  exact (mem_datesAt_iff.mp hd).2

end Schedule

/-! ## Anchoring where the pattern is -/

theorem Ordinal.number_injective {a b : Ordinal} (h : a.number = b.number) : a = b := by
  have ha : Coded.ofCode? (a.number : Int) = some a := ofCode?_eq_some_iff.mpr rfl
  have hb : Coded.ofCode? (b.number : Int) = some b := ofCode?_eq_some_iff.mpr rfl
  rw [h, hb] at ha
  exact (Option.some.inj ha).symm

/-- The ordinal of a day of the month is the place of the date. -/
theorem Date.ofDay?_of_weekdayPlace {d : Date} {ordinal : Ordinal}
    (h : d.weekdayPlace = ordinal.number) : Ordinal.ofDay? d.day = some ordinal := by
  obtain ⟨found, hfound⟩ := Ordinal.exists_ofDay? d
  have hplace := weekdayPlace_eq_of_ofDay? hfound
  rw [hfound, Ordinal.number_injective (hplace.symm.trans h)]

/-- The days behind the twenty-eighth are in the fifth week of their month. -/
theorem Date.ofDay?_of_twentyEight_lt {d : Date} (h : 28 < d.day) :
    Ordinal.ofDay? d.day = some .fifth := by
  have hle := Nat.le_trans d.day_le (daysInMonth_le d.year d.month)
  apply ofDay?_of_weekdayPlace
  unfold weekdayPlace
  change (d.day - 1) / 7 + 1 = 5
  omega

namespace MonthlyDay

variable {choice : MonthlyDay} {d : Date}

theorem anchoredOn_anchoredOn (choice : MonthlyDay) (d : Date) :
    (choice.anchoredOn d).anchoredOn d = choice.anchoredOn d := by
  cases choice with
  | sameDay => rfl
  | last weekday => rfl
  | nth ordinal weekday =>
    obtain ⟨found, hfound⟩ := Ordinal.exists_ofDay? d
    cases found <;> simp [anchoredOn, hfound]

/-- A day that a date has already is kept, unless it is a fifth weekday. -/
theorem anchoredOn_eq_self_iff {seedDay : Nat} (h : choice.Selects seedDay d) :
    choice.anchoredOn d = choice ↔ ∀ weekday, choice ≠ .nth .fifth weekday := by
  cases choice with
  | sameDay => simp [anchoredOn]
  | last weekday =>
    obtain ⟨rfl, -⟩ := h
    simp [anchoredOn]
  | nth ordinal weekday =>
    obtain ⟨rfl, hplace⟩ := h
    have hfound := Date.ofDay?_of_weekdayPlace hplace
    cases ordinal <;> simp [anchoredOn, hfound]

end MonthlyDay

namespace Repeat

variable {pattern : Repeat} {seed d : Date}

theorem frequency_anchoredOn (pattern : Repeat) (d : Date) :
    (pattern.anchoredOn d).frequency = pattern.frequency := by
  cases pattern <;> rfl

theorem anchoredOn_anchoredOn (pattern : Repeat) (d : Date) :
    (pattern.anchoredOn d).anchoredOn d = pattern.anchoredOn d := by
  cases pattern with
  | monthly choice => exact congrArg monthly (choice.anchoredOn_anchoredOn d)
  | daily => rfl
  | weekly days => rfl
  | yearly => rfl

/-- A set of weekdays that holds one is the set of that one when it holds no other. -/
theorem weekly_anchoredOn_eq_self_iff {days : WeekdaySet} (h : d.weekday ∈ days) :
    (weekly days).anchoredOn d = weekly days ↔ ∀ v ∈ days, ∀ w ∈ days, v = w := by
  simp only [anchoredOn, weekly.injEq]
  constructor
  · rintro rfl v hv w hw
    rw [WeekdaySet.singleton, WeekdaySet.mem_ofList, List.mem_singleton] at hv hw
    rw [hv, hw]
  · intro hone
    apply WeekdaySet.ext
    intro w
    rw [WeekdaySet.singleton, WeekdaySet.mem_ofList, List.mem_singleton]
    exact ⟨fun heq ↦ heq ▸ h, fun hw ↦ hone w hw _ h⟩

/-- A pattern that selects a date is kept, unless it has more than one weekday or is that of a fifth
weekday. -/
theorem anchoredOn_eq_self_iff (h : pattern.Selects seed d) :
    pattern.anchoredOn d = pattern ↔
      (∀ days, pattern = .weekly days → ∀ v ∈ days, ∀ w ∈ days, v = w) ∧
        ∀ weekday, pattern ≠ .monthly (.nth .fifth weekday) := by
  cases pattern with
  | daily => simp [anchoredOn]
  | yearly => simp [anchoredOn]
  | weekly days => simpa using weekly_anchoredOn_eq_self_iff h
  | monthly choice =>
    have hchoice : choice.Selects seed.day d := h
    simpa [anchoredOn] using MonthlyDay.anchoredOn_eq_self_iff hchoice

end Repeat

/-! ## Anchored recurrences -/

namespace Recurrence

variable {r : Recurrence} {seed d : Date}

/-- The earliest date on which a recurrence falls from a seed on. -/
def IsFirstDate (r : Recurrence) (seed d : Date) : Prop :=
  r.isOccurrence seed d = true ∧ ∀ other, r.isOccurrence seed other = true → d ≤ other

theorem ext_parts {r s : Recurrence} (hinterval : r.interval = s.interval)
    (hpattern : r.pattern = s.pattern) : r = s := by
  cases r
  cases s
  cases hinterval
  cases hpattern
  rfl

theorem selects_of_isOccurrence (h : r.isOccurrence seed d = true) :
    r.pattern.Selects seed d := by
  obtain ⟨k, -, hd⟩ := isOccurrence_iff.mp h
  exact (Schedule.mem_datesAt_iff.mp hd).1.2

/-- The seed is the first date as soon as the pattern selects it. -/
theorem isFirstDate_seed_iff : r.IsFirstDate seed seed ↔ r.pattern.Selects seed seed := by
  have hseed : r.isOccurrence seed seed = true ↔ r.pattern.Selects seed seed :=
    isOccurrence_iff.trans (Schedule.occurs_seed_iff (s := ⟨r, seed⟩))
  rw [IsFirstDate, hseed, and_iff_left_iff_imp]
  intro _ other hother
  exact Schedule.seed_le_of_occurs (s := ⟨r, seed⟩) (isOccurrence_iff.mp hother)

/-- Anchoring a recurrence on a date keeps its interval and its unit, and does nothing more when it
is done again.  The date is the first one of the anchored recurrence, unless that is one of last
weekdays and the date is not in the last seven days of its month; the place of a date behind the
twenty-eighth is that of a last weekday.  A recurrence that falls on the date from some seed is its
own anchored form, as long as it has at most one weekday and is not that of a fifth one. -/
theorem anchoredOn_keeps_place (r : Recurrence) (d : Date) :
    ((r.anchoredOn d).interval = r.interval ∧ (r.anchoredOn d).frequency = r.frequency) ∧
    (r.anchoredOn d).anchoredOn d = r.anchoredOn d ∧
    ((r.anchoredOn d).IsFirstDate d d ↔
      ∀ weekday, r.pattern = .monthly (.last weekday) → d.IsLastWeekday) ∧
    (∀ ordinal weekday, r.pattern = .monthly (.nth ordinal weekday) → 28 < d.day →
      (r.anchoredOn d).pattern = .monthly (.last d.weekday)) ∧
    ∀ seed, r.isOccurrence seed d = true →
      (r.anchoredOn d = r ↔
        (∀ days, r.pattern = .weekly days → ∀ v ∈ days, ∀ w ∈ days, v = w) ∧
          ∀ weekday, r.pattern ≠ .monthly (.nth .fifth weekday)) := by
  have hinterval : (r.anchoredOn d).interval = r.interval := rfl
  refine ⟨⟨hinterval, r.pattern.frequency_anchoredOn d⟩, ?_, ?_, ?_, ?_⟩
  · exact ext_parts rfl (r.pattern.anchoredOn_anchoredOn d)
  · exact isFirstDate_seed_iff.trans Repeat.selects_anchoredOn_iff
  · intro ordinal weekday hpattern hday
    simp only [anchoredOn, hpattern, Repeat.anchoredOn, MonthlyDay.anchoredOn,
      Date.ofDay?_of_twentyEight_lt hday]
  · intro seed hfalls
    rw [← Repeat.anchoredOn_eq_self_iff (selects_of_isOccurrence hfalls)]
    exact ⟨congrArg Recurrence.pattern, ext_parts hinterval⟩

/-- A meeting on the second Tuesday that is anchored on a fifth Wednesday comes to fall on the last
one, and anchored on a second Tuesday it stays. -/
example :
    let r : Recurrence := ⟨1, .monthly (.nth .second .tuesday), by decide, by decide, rfl⟩
    let wednesday : Date := (Date.ofParts? 2024 1 31).get (by decide)
    let tuesday : Date := (Date.ofParts? 2024 2 13).get (by decide)
    (r.anchoredOn wednesday).pattern = .monthly (.last .wednesday) ∧ r.anchoredOn tuesday = r := by
  decide +kernel

end Recurrence

end MeetingCalendar
