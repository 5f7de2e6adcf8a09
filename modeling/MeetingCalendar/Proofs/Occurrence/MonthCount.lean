import MeetingCalendar.Proofs.Occurrence.Matching
import MeetingCalendar.Proofs.Occurrence.Next
import MeetingCalendar.Proofs.Recurrence.Patch

/-!
# The greatest monthly intervals

Months are counted within sixteen bits.  A monthly schedule moves on by adding its interval to the
number of the month that it is in, and where the sum does not fit it ends.  The greatest intervals
are therefore of no use from late months: with an interval up to 65523 every month fits, with 65535
none does.  The main result is about the first step of the walk, for recurrences on the day of the
month of their seed.
-/

namespace MeetingCalendar

/-- A date lies in a month of the calendar, counted from the start of year 0. -/
theorem Date.monthNumber_div (d : Date) : d.monthNumber / 12 = d.year := by
  have hpos := d.month_pos
  have hle := d.month_le
  unfold monthNumber
  omega

theorem Date.monthNumber_eq_unitOf (d : Date) : d.monthNumber = Frequency.monthly.unitOf d := by
  simp only [monthNumber, Frequency.unitOf]
  omega

/-- One date of each month has a given day. -/
theorem Date.eq_of_monthNumber_eq {d e : Date} (hmonth : d.monthNumber = e.monthNumber)
    (hday : d.day = e.day) : d = e := by
  have hd := d.month_le
  have he := e.month_le
  have hdpos := d.month_pos
  have hepos := e.month_pos
  unfold monthNumber at hmonth
  apply Date.ext_parts
  · omega
  · omega
  · exact hday

/-- Every month has the first twenty-eight days. -/
theorem Date.exists_monthNumber_eq {number : Int} {day : Nat} (hmin : minYear ≤ number / 12)
    (hmax : number / 12 ≤ maxYear) (hpos : 1 ≤ day) (hle : day ≤ 28) :
    ∃ d : Date, d.monthNumber = number ∧ d.day = day := by
  let month := (number % 12).toNat + 1
  have hlength : day ≤ daysInMonth (number / 12) month := by
    have hmonth := le_daysInMonth (number / 12) month
    omega
  refine ⟨⟨number / 12, month, day, hmin, hmax, by omega, by omega, hpos, hlength⟩, ?_, rfl⟩
  simp only [monthNumber]
  omega

namespace Schedule

variable {s : Schedule}

theorem unitAt_one (hmonthly : s.frequency = .monthly) :
    s.unitAt 1 = s.seed.monthNumber + s.interval := by
  rw [unitAt, firstUnit, hmonthly, ← Date.monthNumber_eq_unitOf, Int.natCast_one, Int.mul_one]

/-- A monthly schedule moves on from the month of its seed if the count of months fits. -/
theorem monthsCount_one_iff (hmonthly : s.frequency = .monthly) :
    s.monthsCount 1 = true ↔ s.seed.month + s.interval ≤ maxMonthCount := by
  have hpos := s.seed.month_pos
  have hle := s.seed.month_le
  have hunit : s.unitAt 0 = 12 * s.seed.year + s.seed.month - 1 := by
    rw [unitAt_zero, firstUnit, hmonthly]
    rfl
  have hmonth : s.unitAt 0 % 12 + 1 = s.seed.month := by omega
  have hother : (s.frequency != .monthly) = false := by rw [hmonthly]; rfl
  have hrange : List.range 1 = [0] := rfl
  simp only [monthsCount, hother, hrange, hmonth, List.all_cons, List.all_nil, Bool.false_or,
    Bool.and_true, Bool.or_eq_true, decide_eq_true_eq]
  omega

/-- The second visit is made if the count of months fits and its year is in range. -/
theorem reaches_one_iff (hmonthly : s.frequency = .monthly) (hmin : minYear ≤ s.seed.year)
    (hmax : s.unitAt 1 / 12 ≤ maxYear) :
    s.reaches 1 = true ↔ s.seed.month + s.interval ≤ maxMonthCount := by
  have hyear : s.yearAt 1 = s.unitAt 1 / 12 := by
    rw [yearAt, if_neg Nat.one_ne_zero, hmonthly]
    rfl
  have hfirst := minYear_le_firstNewYear hmin
  -- A visit within the year of the seed is made in any case, but then the interval is short.
  have hshort : s.yearAt 1 = s.seed.year → s.seed.month + s.interval ≤ maxMonthCount := by
    intro h
    have hunit := unitAt_one hmonthly
    unfold Date.monthNumber at hunit
    unfold maxMonthCount
    omega
  unfold reaches
  simp only [hfirst, hyear ▸ hmax, decide_true, Bool.true_and, Bool.or_eq_true, beq_iff_eq,
    monthsCount_one_iff hmonthly]
  exact or_iff_right_of_imp hshort

/-- Behind its seed, a schedule on the same day of each month needs a second visit. -/
theorem reaches_one_of_occurs (hpattern : s.recurrence.pattern = .monthly .sameDay) {e : Date}
    (h : s.Occurs e) (hlt : s.seed < e) :
    s.reaches 1 = true ∧ s.unitAt 1 ≤ e.monthNumber ∧ e.day = s.seed.day := by
  obtain ⟨k, hreaches, hmem⟩ := h
  obtain ⟨⟨hunit, hselects⟩, -⟩ := mem_datesAt_iff.mp hmem
  have hmonthly : s.frequency = .monthly := by
    rw [frequency, Recurrence.frequency, hpattern]
    rfl
  have hday : e.day = s.seed.day := by
    rw [hpattern] at hselects
    exact hselects
  rw [hmonthly, ← Date.monthNumber_eq_unitOf] at hunit
  have hpos : 1 ≤ k := by
    apply Nat.one_le_iff_ne_zero.mpr
    rintro rfl
    rw [unitAt_zero, firstUnit, hmonthly, ← Date.monthNumber_eq_unitOf] at hunit
    rw [Date.eq_of_monthNumber_eq hunit hday] at hlt
    exact absurd hlt (Date.not_lt.mpr (Date.le_refl _))
  exact ⟨s.reaches_of_le hpos hreaches, hunit ▸ s.unitAt_mono hpos, hday⟩

/-- The date of the second visit is the earliest one behind the seed. -/
theorem le_of_occurs (hpattern : s.recurrence.pattern = .monthly .sameDay) {d e : Date}
    (hmonth : d.monthNumber = s.unitAt 1) (hday : d.day = s.seed.day) (h : s.Occurs e)
    (hlt : s.seed < e) : d ≤ e := by
  obtain ⟨-, hle, heday⟩ := reaches_one_of_occurs hpattern h hlt
  rw [← hmonth] at hle
  rcases Int.le_iff_lt_or_eq.mp hle with hless | heq
  · apply Date.le_of_lt
    apply Frequency.monthly.lt_of_unitOf_lt
    rwa [← Date.monthNumber_eq_unitOf, ← Date.monthNumber_eq_unitOf]
  · rw [Date.eq_of_monthNumber_eq heq (hday.trans heday.symm)]
    exact Date.le_refl e

end Schedule

namespace Recurrence

/-- What comes next after the seed, when `d` is the date one interval later. -/
theorem nextOccurrenceAfter_seed {r : Recurrence} (hpattern : r.pattern = .monthly .sameDay)
    {seed d : Date} (hmonth : d.monthNumber = seed.monthNumber + r.interval)
    (hday : d.day = seed.day) (hmin : -10000 ≤ seed.year) (hmax : d.year ≤ 10000) :
    r.nextOccurrenceAfter seed seed =
      if seed.month + r.interval ≤ 65535 then some d else none := by
  let s : Schedule := ⟨r, seed⟩
  have hmonthly : s.frequency = .monthly := by
    change r.pattern.frequency = .monthly
    rw [hpattern]
    rfl
  have hunit : d.monthNumber = s.unitAt 1 := hmonth.trans (Schedule.unitAt_one hmonthly).symm
  have hreaches : s.reaches 1 = true ↔ seed.month + r.interval ≤ 65535 := by
    rw [Schedule.reaches_one_iff hmonthly hmin (by rwa [← hunit, Date.monthNumber_div])]
    change (seed.month : Int) + r.interval ≤ 65535 ↔ _
    omega
  have hlt : seed < d := by
    apply Frequency.monthly.lt_of_unitOf_lt
    have hpos := r.interval_pos
    rw [← Date.monthNumber_eq_unitOf, ← Date.monthNumber_eq_unitOf, hmonth]
    omega
  have hmem : d ∈ s.datesAt 1 := by
    rw [Schedule.mem_datesAt_iff, hmonthly, ← Date.monthNumber_eq_unitOf]
    refine ⟨⟨hunit, ?_⟩, Date.le_of_lt hlt⟩
    change r.pattern.Selects seed d
    rw [hpattern]
    exact hday
  obtain ⟨dates, hhead, hdates⟩ := exists_firstDates_after r seed seed
  have hmax : 0 < defaultMaxOccurrences := by decide
  rw [hhead]
  split
  · next hfits =>
    rw [hdates.head?_eq_some_iff hmax]
    refine ⟨⟨hlt, isOccurrence_iff.mpr ⟨1, hreaches.mpr hfits, hmem⟩⟩, fun e he ↦ ?_⟩
    exact Schedule.le_of_occurs hpattern hunit hday (isOccurrence_iff.mp he.2) he.1
  · next hlarge =>
    rw [hdates.head?_eq_none_iff hmax]
    intro e he
    apply hlarge
    apply hreaches.mp
    exact (Schedule.reaches_one_of_occurs hpattern (isOccurrence_iff.mp he.2) he.1).1

/-- A monthly recurrence on the day of its seed next falls one interval later if the month of the
seed and the interval together are at most 65535; otherwise it never falls again, although every
interval up to 65535 is accepted. -/
theorem nextOccurrenceAfter_sameDay (k : Nat) (seed : Date) (hpos : 1 ≤ k)
    (hle : k ≤ maxInterval) (hday : seed.day ≤ 28) (hmin : -10000 ≤ seed.year)
    (hmax : (seed.monthNumber + k) / 12 ≤ 10000) :
    ∃ r d, monthly k .sameDay = .ok r ∧
      (d.monthNumber = seed.monthNumber + k ∧ d.day = seed.day) ∧
      r.nextOccurrenceAfter seed seed = if seed.month + k ≤ 65535 then some d else none := by
  obtain ⟨r, hr⟩ := exists_make hpos hle (show (Repeat.monthly .sameDay).hasDays = true from rfl)
  obtain ⟨hinterval, hpattern⟩ := make_eq_ok_iff.mp hr
  have hyear := seed.monthNumber_div
  obtain ⟨d, hmonth, hsame⟩ := Date.exists_monthNumber_eq
    (show minYear ≤ (seed.monthNumber + k) / 12 by unfold minYear; omega)
    (show (seed.monthNumber + k) / 12 ≤ maxYear by unfold maxYear; omega) seed.day_pos hday
  have hnext := nextOccurrenceAfter_seed hpattern (by rw [hmonth, hinterval]) hsame hmin
    (by rwa [← Date.monthNumber_div, hmonth])
  rw [hinterval] at hnext
  exact ⟨r, d, hr, ⟨hmonth, hsame⟩, hnext⟩

/-- From November an interval of 65524 months just fits. -/
theorem nextOccurrenceAfter_sameDay_november :
    let seed : Date :=
      ⟨2024, 11, 28, by decide, by decide, by decide, by decide, by decide, by decide⟩
    ((1 ≤ 65524 ∧ 65524 ≤ maxInterval) ∧ seed.day ≤ 28 ∧ -10000 ≤ seed.year ∧
        (seed.monthNumber + (65524 : Nat)) / 12 ≤ 10000) ∧
      ∃ r d, monthly 65524 .sameDay = .ok r ∧ (d.year = 7485 ∧ d.month = 3 ∧ d.day = 28) ∧
        r.nextOccurrenceAfter seed seed = some d := by
  intro seed
  have hmax : (seed.monthNumber + (65524 : Nat)) / 12 ≤ 10000 := by decide
  obtain ⟨r, d, hr, ⟨hmonth, hday⟩, hnext⟩ :=
    nextOccurrenceAfter_sameDay 65524 seed (by decide) (by decide) (by decide) (by decide) hmax
  have hparts : d.year = 7485 ∧ d.month = 3 := by
    have hle := d.month_le
    have hpos := d.month_pos
    have hnumber : seed.monthNumber = 24298 := by decide
    unfold Date.monthNumber at hmonth hnumber
    omega
  rw [if_pos (by decide)] at hnext
  exact ⟨⟨by decide, by decide, by decide, hmax⟩, r, d, hr, ⟨hparts.1, hparts.2, hday⟩, hnext⟩

/-- With the greatest interval that is accepted, there is no next date even from January. -/
theorem not_forall_nextOccurrenceAfter_sameDay :
    ¬∀ (k : Nat) (seed : Date), 1 ≤ k → k ≤ maxInterval → seed.day ≤ 28 →
      -10000 ≤ seed.year → seed.year ≤ 10000 → (seed.monthNumber + k) / 12 ≤ 10000 →
        ∃ r d, monthly k .sameDay = .ok r ∧
          (d.monthNumber = seed.monthNumber + k ∧ d.day = seed.day) ∧
          r.nextOccurrenceAfter seed seed = some d := by
  intro h
  let seed : Date := ⟨2024, 1, 15, by decide, by decide, by decide, by decide, by decide, by decide⟩
  have hmax : (seed.monthNumber + maxInterval) / 12 ≤ 10000 := by decide
  obtain ⟨r, d, hr, ⟨hmonth, hday⟩, hnext⟩ :=
    h maxInterval seed (by decide) (by decide) (by decide) (by decide) (by decide) hmax
  obtain ⟨hinterval, hpattern⟩ := make_eq_ok_iff.mp hr
  have hnone := nextOccurrenceAfter_seed hpattern (by rw [hmonth, hinterval]) hday (by decide)
    (by rwa [← Date.monthNumber_div, hmonth])
  rw [hinterval, hnext, if_neg (by decide)] at hnone
  cases hnone

end Recurrence

end MeetingCalendar
