import MeetingCalendar.Occurrence.Schedule
import MeetingCalendar.Proofs.Date.DayNumber

/-!
# Units of time and the dates that a pattern selects in them

A repeat pattern is computed unit by unit.  Here it is described date by date: `Repeat.Selects` says
which dates a pattern selects, and `Repeat.mem_datesIn_iff` that the dates computed for a unit are
the selected dates that lie in it.  A month without the wanted day gives no date, because there is
no such date to select.
-/

namespace MeetingCalendar

/-! ## Units -/

theorem Frequency.unitOf_mono (f : Frequency) {a b : Date} (h : a ≤ b) : f.unitOf a ≤ f.unitOf b := by
  cases f with
  | daily => exact h
  | weekly =>
    rw [Date.le_iff] at h
    simp only [Frequency.unitOf]
    omega
  | monthly =>
    have hmonths := Date.months_le_of_le h
    simp only [Frequency.unitOf]
    omega
  | yearly => exact Date.year_le_of_le h

theorem Frequency.lt_of_unitOf_lt (f : Frequency) {a b : Date} (h : f.unitOf a < f.unitOf b) :
    a < b := by
  by_cases hle : b ≤ a
  · have := f.unitOf_mono hle
    omega
  · exact Int.not_le.mp hle

/-! ## Selected dates -/

/-- The place of a date among the days of its month with the same weekday, from 1. -/
def Date.weekdayPlace (d : Date) : Nat :=
  (d.day - 1) / 7 + 1

/-- No later day of the month has the same weekday. -/
def Date.IsLastWeekday (d : Date) : Prop :=
  daysInMonth d.year d.month < d.day + 7

instance (d : Date) : Decidable d.IsLastWeekday :=
  inferInstanceAs (Decidable (_ < _))

/-- The dates that a monthly day stands for; `seedDay` is the day of the month of the seed. -/
def MonthlyDay.Selects (choice : MonthlyDay) (seedDay : Nat) (d : Date) : Prop :=
  match choice with
  | sameDay => d.day = seedDay
  | nth ordinal weekday => d.weekday = weekday ∧ d.weekdayPlace = ordinal.number
  | last weekday => d.weekday = weekday ∧ d.IsLastWeekday

/-- The dates on which a pattern falls, when every unit is visited. -/
def Repeat.Selects (pattern : Repeat) (seed d : Date) : Prop :=
  match pattern with
  | daily => True
  | weekly days => d.weekday ∈ days
  | monthly choice => choice.Selects seed.day d
  | yearly => d.month = seed.month ∧ d.day = seed.day

/-- Inside a given month, the day that is computed for a place is the one that has it. -/
theorem Date.day_eq_nth_iff (d : Date) (weekday : Weekday) (place : Nat) :
    (d.day = 1 + ((weekday.index - (daysBeforeYear d.year + daysBeforeMonth d.year d.month)) %
        7).toNat + 7 * place) ↔ d.weekday = weekday ∧ d.weekdayPlace = place + 1 := by
  have hindex := d.weekday_index
  have hpos := d.day_pos
  have hlt := weekday.index_lt
  unfold Date.dayNumber at hindex
  constructor
  · intro hday
    refine ⟨Weekday.index_injective ?_, ?_⟩
    · omega
    · unfold Date.weekdayPlace
      omega
  · rintro ⟨rfl, hplace⟩
    unfold Date.weekdayPlace at hplace
    omega

/-- Inside a given month, the day that is computed from its end is the last one of its name. -/
theorem Date.day_eq_last_iff (d : Date) (weekday : Weekday) :
    (d.day = daysInMonth d.year d.month -
        ((daysBeforeYear d.year + daysBeforeMonth d.year d.month + daysInMonth d.year d.month - 1 -
          weekday.index) % 7).toNat) ↔ d.weekday = weekday ∧ d.IsLastWeekday := by
  have hindex := d.weekday_index
  have hpos := d.day_pos
  have hle := d.day_le
  have hlt := weekday.index_lt
  have hlength := le_daysInMonth d.year d.month
  unfold Date.dayNumber at hindex
  constructor
  · intro hday
    refine ⟨Weekday.index_injective ?_, ?_⟩
    · omega
    · unfold Date.IsLastWeekday
      omega
  · rintro ⟨rfl, hlast⟩
    unfold Date.IsLastWeekday at hlast
    omega

theorem Ordinal.number_pos (ordinal : Ordinal) : 1 ≤ ordinal.number := by
  cases ordinal <;> decide

/-- A monthly day is found in a month exactly when some date of the month is selected. -/
theorem MonthlyDay.dateIn?_eq_some_iff {choice : MonthlyDay} {seedDay month : Nat} {year : Int}
    {d : Date} :
    choice.dateIn? seedDay year month = some d ↔
      (d.year = year ∧ d.month = month) ∧ choice.Selects seedDay d := by
  cases choice with
  | sameDay => simp only [dateIn?, Selects, Date.ofParts?_eq_some_iff, and_assoc]
  | nth ordinal weekday =>
    simp only [dateIn?, Selects, Date.ofParts?_eq_some_iff, and_assoc]
    refine and_congr_right fun hyear ↦ and_congr_right fun hmonth ↦ ?_
    subst hyear hmonth
    rw [Date.day_eq_nth_iff, Nat.sub_add_cancel ordinal.number_pos]
  | last weekday =>
    simp only [dateIn?, Selects, Date.ofParts?_eq_some_iff, and_assoc]
    refine and_congr_right fun hyear ↦ and_congr_right fun hmonth ↦ ?_
    subst hyear hmonth
    exact d.day_eq_last_iff weekday

namespace Repeat

theorem mem_weekly_datesIn_iff {days : WeekdaySet} {seed d : Date} {unit : Int} :
    d ∈ (weekly days).datesIn seed unit ↔
      Frequency.weekly.unitOf d = unit ∧ d.weekday ∈ days := by
  have hindex := d.weekday_index
  simp only [datesIn, List.mem_filterMap, WeekdaySet.mem_toList, Date.ofDayNumber?_eq_some_iff,
    Frequency.unitOf]
  constructor
  · rintro ⟨weekday, hmem, hnumber⟩
    have hlt := weekday.index_lt
    have heq : d.weekday = weekday := Weekday.index_injective (by omega)
    exact ⟨by omega, heq ▸ hmem⟩
  · rintro ⟨hunit, hmem⟩
    exact ⟨d.weekday, hmem, by omega⟩

/-- The dates computed for a unit are the selected dates in it. -/
theorem mem_datesIn_iff {pattern : Repeat} {seed d : Date} {unit : Int} :
    d ∈ pattern.datesIn seed unit ↔
      pattern.frequency.unitOf d = unit ∧ pattern.Selects seed d := by
  cases pattern with
  | daily =>
    simp only [datesIn, Option.mem_toList, Date.ofDayNumber?_eq_some_iff, frequency,
      Frequency.unitOf, Selects, and_true]
  | weekly days => exact mem_weekly_datesIn_iff
  | monthly choice =>
    have hpos := d.month_pos
    have hle := d.month_le
    simp only [datesIn, Option.mem_toList, MonthlyDay.dateIn?_eq_some_iff, frequency,
      Frequency.unitOf, Selects]
    refine and_congr_left fun _ ↦ ?_
    omega
  | yearly =>
    simp only [datesIn, Option.mem_toList, Date.ofParts?_eq_some_iff, frequency,
      Frequency.unitOf, Selects]

theorem pairwise_all : Weekday.all.Pairwise fun v w ↦ v.index < w.index := by
  decide

/-- The dates computed for a unit come in order. -/
theorem pairwise_datesIn (pattern : Repeat) (seed : Date) (unit : Int) :
    (pattern.datesIn seed unit).Pairwise (· < ·) := by
  cases pattern with
  | daily => exact Option.pairwise_toList
  | weekly days =>
    have hdays : days.toList.Pairwise fun v w ↦ v.index < w.index :=
      pairwise_all.sublist List.filter_sublist
    refine List.Pairwise.filterMap _ (fun v w hlt a ha b hb ↦ ?_) hdays
    rw [Date.ofDayNumber?_eq_some_iff] at ha hb
    rw [Date.lt_iff]
    omega
  | monthly choice => exact Option.pairwise_toList
  | yearly => exact Option.pairwise_toList

end Repeat

end MeetingCalendar
