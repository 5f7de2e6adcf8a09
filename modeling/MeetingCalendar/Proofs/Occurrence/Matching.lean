import MeetingCalendar.Proofs.Occurrence.Expansion

/-!
# The dates that match a recurrence

`Recurrence.Matches` says in terms of the calendar alone which dates a recurrence has: so many days,
weeks, months or years from the seed, and on the right day.  The main result is that an expansion
lists exactly the matching dates from the seed on, up to the end of the year 10000, provided that the
seed lies between the years -10000 and 10000 and a monthly interval leaves room for the count of
months.
-/

namespace MeetingCalendar

/-- The number of the Monday that starts the week of a date. -/
def Date.monday (d : Date) : Int :=
  d.dayNumber - d.weekday.index

/-- The number of months from the start of year 0 to the start of the month of a date. -/
def Date.monthNumber (d : Date) : Int :=
  12 * d.year + (d.month - 1)

/-- A date is a multiple of the interval away from the seed and is a day that the pattern names. -/
def Recurrence.Matches (r : Recurrence) (seed d : Date) : Prop :=
  match r.pattern with
  | .daily => (r.interval : Int) ∣ d.dayNumber - seed.dayNumber
  | .weekly days => d.weekday ∈ days ∧ (r.interval : Int) ∣ (d.monday - seed.monday) / 7
  | .monthly choice =>
    (r.interval : Int) ∣ d.monthNumber - seed.monthNumber ∧ choice.Selects seed.day d
  | .yearly => (d.month = seed.month ∧ d.day = seed.day) ∧ (r.interval : Int) ∣ d.year - seed.year

/-- Matching is selection by the pattern in a unit at the right distance. -/
theorem Recurrence.matches_iff {r : Recurrence} {seed d : Date} :
    r.Matches seed d ↔ r.pattern.Selects seed d ∧
      (r.interval : Int) ∣ r.frequency.unitOf d - r.frequency.unitOf seed := by
  unfold Matches frequency
  cases r.pattern with
  | daily => simp [Repeat.Selects, Repeat.frequency, Frequency.unitOf]
  | weekly days =>
    have hd := d.weekday_index
    have hseed := seed.weekday_index
    have hweeks : (d.monday - seed.monday) / 7 =
        (d.dayNumber - 1) / 7 - (seed.dayNumber - 1) / 7 := by
      unfold Date.monday
      omega
    simp only [Repeat.Selects, Repeat.frequency, Frequency.unitOf, hweeks]
  | monthly choice =>
    have hmonths : d.monthNumber - seed.monthNumber =
        12 * d.year + d.month - 1 - (12 * seed.year + seed.month - 1) := by
      unfold Date.monthNumber
      omega
    simp only [Repeat.Selects, Repeat.frequency, Frequency.unitOf, hmonths, and_comm]
  | yearly => simp only [Repeat.Selects, Repeat.frequency, Frequency.unitOf]

/-! ## The end of the walk -/

theorem Date.yearOfDayNumber_le_iff {n year : Int} :
    Date.yearOfDayNumber n ≤ year ↔ n ≤ daysBeforeYear (year + 1) := by
  obtain ⟨hlow, hhigh⟩ := Date.yearOfDayNumber_bounds n
  constructor
  · intro h
    have hmono := daysBeforeYear_mono (show Date.yearOfDayNumber n + 1 ≤ year + 1 by omega)
    omega
  · intro h
    by_cases hlt : year < Date.yearOfDayNumber n
    · have hmono := daysBeforeYear_mono (show year + 1 ≤ Date.yearOfDayNumber n from hlt)
      omega
    · exact Int.not_lt.mp hlt

namespace Schedule

/-- The last unit of the walk ends with its last year.  For weeks this holds because the first day
of the year 10001 is a Monday. -/
theorem yearOfUnit_unitOf_le_maxYear_iff (f : Frequency) (d : Date) :
    f.yearOfUnit (f.unitOf d) ≤ maxYear ↔ d.year ≤ maxYear := by
  have hyear : d.year ≤ maxYear ↔ d.dayNumber ≤ daysBeforeYear (maxYear + 1) := by
    rw [← Date.yearOfDayNumber_le_iff, Date.yearOfDayNumber_dayNumber]
  have hend : daysBeforeYear (maxYear + 1) = 7 * 521775 := by decide
  cases f with
  | daily => simp only [Frequency.unitOf, Frequency.yearOfUnit, Date.yearOfDayNumber_dayNumber]
  | weekly =>
    rw [hyear]
    simp only [Frequency.unitOf, Frequency.yearOfUnit, Date.yearOfDayNumber_le_iff, hend]
    omega
  | monthly =>
    have hpos := d.month_pos
    have hle := d.month_le
    simp only [Frequency.unitOf, Frequency.yearOfUnit]
    omega
  | yearly => exact Iff.rfl

variable {s : Schedule}

theorem yearAt_le_maxYear_iff {k : Nat} {d : Date} (h : s.frequency.unitOf d = s.unitAt k) :
    s.yearAt k ≤ maxYear ↔ d.year ≤ maxYear := by
  unfold yearAt
  split
  · rename_i hk
    rw [hk, unitAt_zero] at h
    rw [← yearOfUnit_unitOf_le_maxYear_iff s.frequency s.seed,
      ← yearOfUnit_unitOf_le_maxYear_iff s.frequency d, h]
    rfl
  · rw [← h]
    exact yearOfUnit_unitOf_le_maxYear_iff s.frequency d

theorem minYear_le_firstNewYear (hseed : minYear ≤ s.seed.year) : minYear ≤ s.firstNewYear := by
  have hyear : ∀ k, s.seed.year ≤ s.yearAt k := fun k ↦ s.yearAt_mono (Nat.zero_le k)
  unfold firstNewYear
  split
  · omega
  · omega
  · exact Int.le_trans hseed (hyear _)
  · exact Int.le_trans hseed (hyear _)

/-- From a seed in the range of years the walk goes on to the end of that range. -/
theorem reaches_iff (hmin : minYear ≤ s.seed.year) (hmax : s.seed.year ≤ maxYear)
    (hmonths : s.frequency = .monthly → s.interval + 12 ≤ maxMonthCount) {k : Nat} :
    s.reaches k = true ↔ s.yearAt k ≤ maxYear := by
  have hcount : s.monthsCount k = true := by
    unfold monthsCount
    by_cases hmonthly : s.frequency = .monthly
    · simp [hmonths hmonthly]
    · simp [hmonthly]
  have hfirst := minYear_le_firstNewYear hmin
  unfold reaches
  simp only [hcount, hfirst, Bool.or_eq_true, Bool.and_eq_true, beq_iff_eq, decide_eq_true_eq,
    true_and, and_true]
  omega

/-! ## Occurrences and matching dates -/

/-- A unit that is not in front of the seed's is visited when it is a multiple of the interval
away. -/
theorem exists_unitAt_eq_iff {unit : Int} (h : s.firstUnit ≤ unit) :
    (∃ k, unit = s.unitAt k) ↔ s.interval ∣ unit - s.firstUnit := by
  constructor
  · rintro ⟨k, rfl⟩
    exact ⟨k, by unfold unitAt; omega⟩
  · rintro ⟨q, hq⟩
    have hnonneg : 0 ≤ q := by
      refine Int.le_of_mul_le_mul_left ?_ s.interval_pos
      rw [Int.mul_zero, ← hq]
      omega
    refine ⟨q.toNat, ?_⟩
    unfold unitAt
    rw [Int.toNat_of_nonneg hnonneg]
    omega

/-- The dates on which a schedule falls, without the walk. -/
theorem occurs_iff (hmin : minYear ≤ s.seed.year) (hmax : s.seed.year ≤ maxYear)
    (hmonths : s.frequency = .monthly → s.interval + 12 ≤ maxMonthCount) {d : Date} :
    s.Occurs d ↔ s.seed ≤ d ∧ d.year ≤ maxYear ∧ s.recurrence.Matches s.seed d := by
  rw [Recurrence.matches_iff]
  constructor
  · rintro ⟨k, hreaches, hd⟩
    obtain ⟨⟨hunit, hselects⟩, hseed⟩ := mem_datesAt_iff.mp hd
    rw [reaches_iff hmin hmax hmonths, yearAt_le_maxYear_iff hunit] at hreaches
    refine ⟨hseed, hreaches, hselects, ?_⟩
    exact (exists_unitAt_eq_iff (s.frequency.unitOf_mono hseed)).mp ⟨k, hunit⟩
  · rintro ⟨hseed, hyear, hselects, hdvd⟩
    obtain ⟨k, hunit⟩ := (exists_unitAt_eq_iff (s.frequency.unitOf_mono hseed)).mpr hdvd
    refine ⟨k, ?_, mem_datesAt_iff.mpr ⟨⟨hunit, hselects⟩, hseed⟩⟩
    rwa [reaches_iff hmin hmax hmonths, yearAt_le_maxYear_iff hunit]

end Schedule

/-- An expansion lists, in ascending order, the first dates of its window that match the recurrence
from the seed on and are not later than the year 10000. -/
theorem Expansion.toList_matching (r : Recurrence) (seed : Date) (window : Window) (max : Nat)
    (hmin : -10000 ≤ seed.year) (hmax : seed.year ≤ 10000)
    (hmonths : r.frequency = .monthly → r.interval ≤ 65523) :
    FirstDates max
      (fun d ↦ d ∈ window ∧ seed ≤ d ∧ d.year ≤ 10000 ∧ r.Matches seed d)
      (Expansion.toList ⟨⟨r, seed⟩, window, max⟩) := by
  have hcount : r.frequency = .monthly → (r.interval : Int) + 12 ≤ Schedule.maxMonthCount := by
    intro hmonthly
    have hle := hmonths hmonthly
    unfold Schedule.maxMonthCount
    omega
  refine (Expansion.firstDates_toList ⟨⟨r, seed⟩, window, max⟩).congr fun d ↦ ?_
  exact and_congr_right fun _ ↦ Schedule.occurs_iff (s := ⟨r, seed⟩) hmin hmax hcount

/-- The thirty-first of every month: February and April have none. -/
theorem Expansion.toList_matching_thirty_first :
    let r : Recurrence := ⟨1, .monthly .sameDay, by decide, by decide, rfl⟩
    let seed : Date := ⟨2024, 1, 31, by decide, by decide, by decide, by decide, by decide, by decide⟩
    let stop : Date := ⟨2024, 5, 31, by decide, by decide, by decide, by decide, by decide, by decide⟩
    let dates := Expansion.toList ⟨⟨r, seed⟩, ⟨seed, stop⟩, 100⟩
    (-10000 ≤ seed.year ∧ seed.year ≤ 10000) ∧
      (r.frequency = .monthly → r.interval ≤ 65523) ∧
      dates.map (fun d ↦ (d.month, d.day)) = [(1, 31), (3, 31), (5, 31)] ∧
      FirstDates 100
        (fun d ↦ d ∈ (⟨seed, stop⟩ : Window) ∧ seed ≤ d ∧ d.year ≤ 10000 ∧ r.Matches seed d)
        dates := by
  intro r seed stop dates
  refine ⟨⟨by decide, by decide⟩, fun _ ↦ by decide, by decide +kernel, ?_⟩
  exact Expansion.toList_matching r seed ⟨seed, stop⟩ 100 (by decide) (by decide) fun _ ↦ by decide

end MeetingCalendar
