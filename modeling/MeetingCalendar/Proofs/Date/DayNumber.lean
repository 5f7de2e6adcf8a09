import MeetingCalendar.Date.Basic

/-!
# Day numbers and dates

Day numbers cut the line of integers into years and the years into months.  This module proves that
`Date.dayNumber` and `Date.ofDayNumber?` undo each other, so a date is determined by its number, and
that the order of dates by number is the order by year, month and day.

The year of a day number is found from a guess that is off by at most one; the month is searched
from January on.
-/

namespace MeetingCalendar

/-! ## Years -/

def daysInYear (year : Int) : Nat :=
  if isLeapYear year then 366 else 365

theorem daysBeforeYear_succ (year : Int) :
    daysBeforeYear (year + 1) = daysBeforeYear year + daysInYear year := by
  unfold daysInYear
  by_cases hleap : isLeapYear year = true
  · rw [if_pos hleap]
    simp only [isLeapYear, Bool.and_eq_true, Bool.or_eq_true, beq_iff_eq, bne_iff_ne] at hleap
    unfold daysBeforeYear
    omega
  · rw [if_neg hleap]
    simp only [isLeapYear, Bool.and_eq_true, Bool.or_eq_true, beq_iff_eq, bne_iff_ne] at hleap
    unfold daysBeforeYear
    omega

theorem daysBeforeYear_mono {y z : Int} (h : y ≤ z) : daysBeforeYear y ≤ daysBeforeYear z := by
  unfold daysBeforeYear
  omega

/-- A day belongs to the year that `yearOfDayNumber` finds. -/
theorem Date.yearOfDayNumber_bounds (n : Int) :
    daysBeforeYear (Date.yearOfDayNumber n) < n ∧
      n ≤ daysBeforeYear (Date.yearOfDayNumber n + 1) := by
  simp only [Date.yearOfDayNumber]
  split
  · rename_i hlow
    constructor
    · unfold daysBeforeYear
      omega
    · rwa [Int.sub_add_cancel]
  · split
    · constructor
      · assumption
      · unfold daysBeforeYear
        omega
    · omega

/-- No other year holds the day. -/
theorem Date.yearOfDayNumber_eq {year n : Int} (hlow : daysBeforeYear year < n)
    (hhigh : n ≤ daysBeforeYear (year + 1)) : Date.yearOfDayNumber n = year := by
  obtain ⟨hlow', hhigh'⟩ := Date.yearOfDayNumber_bounds n
  rcases Int.lt_trichotomy (Date.yearOfDayNumber n) year with hlt | heq | hgt
  · have := daysBeforeYear_mono (y := Date.yearOfDayNumber n + 1) hlt
    omega
  · exact heq
  · have := daysBeforeYear_mono (y := year + 1) hgt
    omega

theorem Date.yearOfDayNumber_mono {m n : Int} (h : m ≤ n) :
    Date.yearOfDayNumber m ≤ Date.yearOfDayNumber n := by
  by_cases hlt : Date.yearOfDayNumber n < Date.yearOfDayNumber m
  · have hmono := daysBeforeYear_mono (show Date.yearOfDayNumber n + 1 ≤ _ from hlt)
    have hm := (Date.yearOfDayNumber_bounds m).1
    have hn := (Date.yearOfDayNumber_bounds n).2
    omega
  · exact Int.not_lt.mp hlt

/-! ## Months -/

theorem daysBeforeMonth_succ (year : Int) {month : Nat} (h : 1 ≤ month) :
    daysBeforeMonth year (month + 1) = daysBeforeMonth year month + daysInMonth year month := by
  cases month with
  | zero => omega
  | succ month => rfl

theorem daysBeforeMonth_mono (year : Int) {m n : Nat} (h : m ≤ n) :
    daysBeforeMonth year m ≤ daysBeforeMonth year n := by
  induction h with
  | refl => exact Nat.le_refl _
  | @step n _ ih =>
    cases n with
    | zero => exact ih
    | succ n => exact Nat.le_trans ih (Nat.le_add_right _ _)

/-- Twelve months make a year. -/
theorem daysBeforeMonth_thirteen (year : Int) : daysBeforeMonth year 13 = daysInYear year := by
  by_cases hleap : isLeapYear year = true
  · simp [daysBeforeMonth, daysInMonth, daysInYear, hleap]
  · simp [daysBeforeMonth, daysInMonth, daysInYear, hleap]

theorem daysInMonth_le (year : Int) (month : Nat) : daysInMonth year month ≤ 31 := by
  unfold daysInMonth
  repeat' split
  all_goals omega

theorem le_daysInMonth (year : Int) (month : Nat) : 28 ≤ daysInMonth year month := by
  unfold daysInMonth
  repeat' split
  all_goals omega

/-- The search for a month keeps the number of the day and stops inside a month. -/
theorem Date.monthAndDay_spec {year : Int} {months month n m d : Nat}
    (hfound : Date.monthAndDay year months month n = (m, d)) (hmonth : 1 ≤ month) (hpos : 1 ≤ n)
    (hle : daysBeforeMonth year month + n ≤ daysBeforeMonth year (month + months + 1)) :
    daysBeforeMonth year m + d = daysBeforeMonth year month + n ∧
      (month ≤ m ∧ m ≤ month + months) ∧ 1 ≤ d ∧ d ≤ daysInMonth year m := by
  have hsucc := daysBeforeMonth_succ year hmonth
  induction months generalizing month n with
  | zero =>
    obtain ⟨rfl, rfl⟩ := Prod.mk.inj hfound
    rw [Nat.add_zero] at hle
    omega
  | succ months ih =>
    unfold Date.monthAndDay at hfound
    split at hfound
    · obtain ⟨rfl, rfl⟩ := Prod.mk.inj hfound
      omega
    · have harith : month + 1 + months + 1 = month + (months + 1) + 1 := by omega
      have hrest := ih hfound (by omega) (by omega) (by rw [harith]; omega)
        (daysBeforeMonth_succ year (by omega))
      omega

/-! ## Dates -/

namespace Date

theorem le_refl (a : Date) : a ≤ a :=
  Int.le_refl _

theorem le_trans {a b c : Date} (hab : a ≤ b) (hbc : b ≤ c) : a ≤ c :=
  Int.le_trans hab hbc

theorem lt_of_lt_of_le {a b c : Date} (hab : a < b) (hbc : b ≤ c) : a < c :=
  Int.lt_of_lt_of_le hab hbc

theorem lt_of_le_of_lt {a b c : Date} (hab : a ≤ b) (hbc : b < c) : a < c :=
  Int.lt_of_le_of_lt hab hbc

theorem le_of_lt {a b : Date} (h : a < b) : a ≤ b :=
  Int.le_of_lt h

theorem not_le {a b : Date} : ¬a ≤ b ↔ b < a :=
  Int.not_le

theorem not_lt {a b : Date} : ¬a < b ↔ b ≤ a :=
  Int.not_lt

theorem ext_parts {a b : Date} (hyear : a.year = b.year) (hmonth : a.month = b.month)
    (hday : a.day = b.day) : a = b := by
  cases a
  cases b
  simp_all

theorem ofParts?_eq_some_iff {year : Int} {month day : Nat} {d : Date} :
    ofParts? year month day = some d ↔ d.year = year ∧ d.month = month ∧ d.day = day := by
  constructor
  · exact parts_of_ofParts?
  · rintro ⟨rfl, rfl, rfl⟩
    exact ofParts?_parts d

def dayOfYear (d : Date) : Nat :=
  daysBeforeMonth d.year d.month + d.day

theorem dayNumber_eq (d : Date) : d.dayNumber = daysBeforeYear d.year + d.dayOfYear := by
  unfold dayNumber dayOfYear
  omega

theorem dayOfYear_pos (d : Date) : 1 ≤ d.dayOfYear :=
  Nat.le_trans d.day_pos (Nat.le_add_left _ _)

/-- A day lies in front of the month behind its own. -/
theorem dayOfYear_le_of_lt_month (d : Date) {month : Nat} (h : d.month < month) :
    d.dayOfYear ≤ daysBeforeMonth d.year month := by
  calc
    d.dayOfYear ≤ daysBeforeMonth d.year d.month + daysInMonth d.year d.month :=
      Nat.add_le_add_left d.day_le _
    _ = daysBeforeMonth d.year (d.month + 1) := (daysBeforeMonth_succ d.year d.month_pos).symm
    _ ≤ daysBeforeMonth d.year month := daysBeforeMonth_mono d.year h

theorem dayOfYear_le (d : Date) : d.dayOfYear ≤ daysInYear d.year := by
  calc
    d.dayOfYear ≤ daysBeforeMonth d.year 13 :=
      d.dayOfYear_le_of_lt_month (Nat.lt_succ_of_le d.month_le)
    _ = daysInYear d.year := daysBeforeMonth_thirteen d.year

theorem daysBeforeYear_lt_dayNumber (d : Date) : daysBeforeYear d.year < d.dayNumber := by
  have hpos := d.dayOfYear_pos
  rw [dayNumber_eq]
  omega

theorem dayNumber_le_daysBeforeYear (d : Date) : d.dayNumber ≤ daysBeforeYear (d.year + 1) := by
  calc
    d.dayNumber = daysBeforeYear d.year + d.dayOfYear := d.dayNumber_eq
    _ ≤ daysBeforeYear d.year + daysInYear d.year :=
      Int.add_le_add_left (Int.ofNat_le.mpr d.dayOfYear_le) _
    _ = daysBeforeYear (d.year + 1) := (daysBeforeYear_succ d.year).symm

@[simp]
theorem yearOfDayNumber_dayNumber (d : Date) : yearOfDayNumber d.dayNumber = d.year :=
  yearOfDayNumber_eq d.daysBeforeYear_lt_dayNumber d.dayNumber_le_daysBeforeYear

/-- In one year an earlier month means an earlier date. -/
theorem lt_of_month_lt {a b : Date} (hyear : a.year = b.year) (h : a.month < b.month) : a < b := by
  have hday : a.dayOfYear < b.dayOfYear := by
    calc
      a.dayOfYear ≤ daysBeforeMonth a.year b.month := a.dayOfYear_le_of_lt_month h
      _ = daysBeforeMonth b.year b.month := by rw [hyear]
      _ < b.dayOfYear := Nat.lt_add_of_pos_right b.day_pos
  rw [lt_iff, dayNumber_eq, dayNumber_eq, hyear]
  exact Int.add_lt_add_left (Int.ofNat_lt.mpr hday) _

theorem year_le_of_le {a b : Date} (h : a ≤ b) : a.year ≤ b.year := by
  calc
    a.year = yearOfDayNumber a.dayNumber := (yearOfDayNumber_dayNumber a).symm
    _ ≤ yearOfDayNumber b.dayNumber := yearOfDayNumber_mono h
    _ = b.year := yearOfDayNumber_dayNumber b

/-- The months between dates, counted over the years, do not go back in time. -/
theorem months_le_of_le {a b : Date} (h : a ≤ b) :
    12 * a.year + a.month ≤ 12 * b.year + b.month := by
  have hyear := year_le_of_le h
  have ha := a.month_le
  have hb := b.month_pos
  by_cases heq : a.year = b.year
  · by_cases hlt : b.month < a.month
    · have := lt_of_month_lt heq.symm hlt
      rw [lt_iff] at this
      rw [le_iff] at h
      omega
    · omega
  · omega

/-- A date is determined by its number. -/
theorem dayNumber_injective {a b : Date} (h : a.dayNumber = b.dayNumber) : a = b := by
  have hyear : a.year = b.year := by
    rw [← yearOfDayNumber_dayNumber a, h, yearOfDayNumber_dayNumber]
  have hmonth : a.month = b.month := by
    rcases Nat.lt_trichotomy a.month b.month with hlt | heq | hgt
    · have := lt_of_month_lt hyear hlt
      rw [lt_iff] at this
      omega
    · exact heq
    · have := lt_of_month_lt hyear.symm hgt
      rw [lt_iff] at this
      omega
  have hday : a.day = b.day := by
    unfold dayNumber at h
    rw [hyear, hmonth] at h
    omega
  exact ext_parts hyear hmonth hday

theorem le_antisymm {a b : Date} (hab : a ≤ b) (hba : b ≤ a) : a = b :=
  dayNumber_injective (Int.le_antisymm hab hba)

/-- The parts that `ofDayNumber?` tries for a number are those of a day with that number, apart from
the range of years. -/
theorem ofDayNumber?_eq_ofParts? (n : Int) :
    ∃ month day, ofDayNumber? n = ofParts? (yearOfDayNumber n) month day ∧
      (1 ≤ month ∧ month ≤ 12) ∧
      (1 ≤ day ∧ day ≤ daysInMonth (yearOfDayNumber n) month) ∧
      daysBeforeYear (yearOfDayNumber n) + daysBeforeMonth (yearOfDayNumber n) month + day = n := by
  obtain ⟨hlow, hhigh⟩ := yearOfDayNumber_bounds n
  generalize hyear : yearOfDayNumber n = year at hlow hhigh
  rw [daysBeforeYear_succ] at hhigh
  obtain ⟨month, day, hfound⟩ : ∃ month day,
      monthAndDay year 11 1 (n - daysBeforeYear year).toNat = (month, day) := ⟨_, _, rfl⟩
  have hone : daysBeforeMonth year 1 = 0 := rfl
  obtain ⟨hsum, hmonth, hday⟩ := monthAndDay_spec hfound (Nat.le_refl 1) (by omega) (by
    rw [daysBeforeMonth_thirteen]
    omega)
  refine ⟨month, day, ?_, hmonth, hday, by omega⟩
  simp only [ofDayNumber?, hyear, hfound]

theorem dayNumber_of_ofDayNumber? {n : Int} {d : Date} (h : ofDayNumber? n = some d) :
    d.dayNumber = n := by
  obtain ⟨month, day, hparts, -, -, hsum⟩ := ofDayNumber?_eq_ofParts? n
  rw [hparts, ofParts?_eq_some_iff] at h
  obtain ⟨hyear, rfl, rfl⟩ := h
  unfold dayNumber
  rw [hyear]
  exact hsum

/-- Between the numbers of two dates every number is that of a date. -/
theorem exists_ofDayNumber?_eq_some {a b : Date} {n : Int} (ha : a.dayNumber ≤ n)
    (hb : n ≤ b.dayNumber) : ∃ d, ofDayNumber? n = some d := by
  have hmin : minYear ≤ yearOfDayNumber n := by
    calc
      minYear ≤ a.year := a.minYear_le
      _ = yearOfDayNumber a.dayNumber := (yearOfDayNumber_dayNumber a).symm
      _ ≤ yearOfDayNumber n := yearOfDayNumber_mono ha
  have hmax : yearOfDayNumber n ≤ maxYear := by
    calc
      yearOfDayNumber n ≤ yearOfDayNumber b.dayNumber := yearOfDayNumber_mono hb
      _ = b.year := yearOfDayNumber_dayNumber b
      _ ≤ maxYear := b.le_maxYear
  obtain ⟨month, day, hparts, hmonth, hday, -⟩ := ofDayNumber?_eq_ofParts? n
  let d : Date := ⟨yearOfDayNumber n, month, day, hmin, hmax, hmonth.1, hmonth.2, hday.1, hday.2⟩
  exact ⟨d, hparts.trans (ofParts?_parts d)⟩

/-- The numbers of dates and the dates undo each other. -/
theorem ofDayNumber?_eq_some_iff {n : Int} {d : Date} :
    ofDayNumber? n = some d ↔ d.dayNumber = n := by
  constructor
  · exact dayNumber_of_ofDayNumber?
  · rintro rfl
    obtain ⟨found, hfound⟩ :=
      exists_ofDayNumber?_eq_some (Int.le_refl d.dayNumber) (Int.le_refl d.dayNumber)
    rw [hfound, dayNumber_injective (dayNumber_of_ofDayNumber? hfound)]

/-! ## The ends of the calendar -/

theorem first_le (d : Date) : first ≤ d := by
  have hfirst : first.dayNumber = daysBeforeYear minYear + 1 := by decide
  have hyear : daysBeforeYear minYear ≤ daysBeforeYear d.year := daysBeforeYear_mono d.minYear_le
  have hday := d.daysBeforeYear_lt_dayNumber
  rw [le_iff]
  omega

theorem le_last (d : Date) : d ≤ last := by
  have hlast : last.dayNumber = daysBeforeYear (maxYear + 1) := by decide
  have hyear : daysBeforeYear (d.year + 1) ≤ daysBeforeYear (maxYear + 1) :=
    daysBeforeYear_mono (Int.add_le_add_right d.le_maxYear 1)
  have hday := d.dayNumber_le_daysBeforeYear
  rw [le_iff]
  omega

/-! ## Neighbours and weekdays -/

theorem next?_eq_some_iff {d e : Date} : d.next? = some e ↔ e.dayNumber = d.dayNumber + 1 :=
  ofDayNumber?_eq_some_iff

/-- Only the last date has no next day. -/
theorem le_of_next?_eq_none {d : Date} (h : d.next? = none) (e : Date) : e ≤ d := by
  rw [le_iff]
  by_cases hlt : d.dayNumber < e.dayNumber
  · obtain ⟨found, hfound⟩ :=
      exists_ofDayNumber?_eq_some (n := d.dayNumber + 1) (Int.le_add_one (Int.le_refl _)) hlt
    have hsome : d.next? = some found := hfound
    rw [h] at hsome
    exact absurd hsome nofun
  · exact Int.not_lt.mp hlt

/-- Weekdays count the days from a Monday on. -/
theorem weekday_index (d : Date) : (d.weekday.index : Int) = (d.dayNumber - 1) % 7 := by
  unfold weekday
  rw [Weekday.index_ofIndex]
  omega

end Date

end MeetingCalendar
