import MeetingCalendar.Proofs.Date.FirstDates
import MeetingCalendar.Proofs.Occurrence.Unit

/-!
# The walk of a schedule

A schedule visits units in steps of its interval and gives the dates of each visit.  The main result
is `Schedule.firstDates_spec`: the search for the first dates in a window, which starts at a visit
computed from the window and stops after a computed number of visits, finds exactly the first dates
of the whole walk that lie in the window.  It holds for every seed, also one from which the walk
soon leaves the range of years.
-/

namespace MeetingCalendar

theorem Frequency.yearOfUnit_mono (f : Frequency) {u v : Int} (h : u ≤ v) :
    f.yearOfUnit u ≤ f.yearOfUnit v := by
  cases f with
  | daily => exact Date.yearOfDayNumber_mono h
  | weekly => exact Date.yearOfDayNumber_mono (by omega)
  | monthly =>
    simp only [Frequency.yearOfUnit]
    omega
  | yearly => exact h

/-- A later unit does not start in an earlier year. -/
theorem Frequency.year_le_yearOfUnit (f : Frequency) {d : Date} {unit : Int}
    (h : f.unitOf d < unit) : d.year ≤ f.yearOfUnit unit := by
  cases f with
  | daily =>
    rw [← d.yearOfDayNumber_dayNumber]
    exact Date.yearOfDayNumber_mono (Int.le_of_lt h)
  | weekly =>
    rw [← d.yearOfDayNumber_dayNumber]
    apply Date.yearOfDayNumber_mono
    simp only [Frequency.unitOf] at h
    omega
  | monthly =>
    have hpos := d.month_pos
    simp only [Frequency.unitOf, Frequency.yearOfUnit] at h ⊢
    omega
  | yearly => exact Int.le_of_lt h

namespace Schedule

variable (s : Schedule)

/-! ## Visits -/

theorem interval_pos : 0 < s.interval :=
  Int.natCast_pos.mpr s.recurrence.interval_pos

theorem unitAt_zero : s.unitAt 0 = s.firstUnit := by
  simp [unitAt]

theorem unitAt_mono {j k : Nat} (h : j ≤ k) : s.unitAt j ≤ s.unitAt k := by
  have hmul := Int.mul_le_mul_of_nonneg_left (Int.ofNat_le.mpr h) (Int.le_of_lt s.interval_pos)
  unfold unitAt
  omega

theorem unitAt_lt {j k : Nat} (h : j < k) : s.unitAt j < s.unitAt k := by
  have hmul := Int.mul_lt_mul_of_pos_left (Int.ofNat_lt.mpr h) s.interval_pos
  unfold unitAt
  omega

/-- The first visit to a unit or a later one. -/
theorem visitFrom_le_iff {unit : Int} {k : Nat} : s.visitFrom unit ≤ k ↔ unit ≤ s.unitAt k := by
  have hdiv : (unit - s.firstUnit + s.interval - 1) / s.interval < (k : Int) + 1 ↔
      unit - s.firstUnit + s.interval - 1 < ((k : Int) + 1) * s.interval :=
    Int.ediv_lt_iff_lt_mul s.interval_pos
  have hmul : ((k : Int) + 1) * s.interval = s.interval * k + s.interval := by
    rw [Int.add_mul, Int.one_mul, Int.mul_comm]
  unfold visitFrom unitAt
  omega

/-- The number of visits from one on that start no later than a unit. -/
theorem lt_add_visits_iff {stop : Int} {j k : Nat} (h : k ≤ j) :
    j < k + ((stop - s.unitAt k) / s.interval + 1).toNat ↔ s.unitAt j ≤ stop := by
  have hdiv : ((j : Int) - k) ≤ (stop - s.unitAt k) / s.interval ↔
      ((j : Int) - k) * s.interval ≤ stop - s.unitAt k :=
    Int.le_ediv_iff_mul_le s.interval_pos
  have hmul : ((j : Int) - k) * s.interval = s.unitAt j - s.unitAt k := by
    unfold unitAt
    rw [Int.sub_mul, Int.mul_comm, Int.mul_comm (k : Int)]
    omega
  rw [hmul] at hdiv
  omega

theorem yearAt_mono {j k : Nat} (h : j ≤ k) : s.yearAt j ≤ s.yearAt k := by
  by_cases hk : k = 0
  · subst hk
    obtain rfl : j = 0 := Nat.le_zero.mp h
    exact Int.le_refl _
  · unfold yearAt
    rw [if_neg hk]
    split
    · apply s.frequency.year_le_yearOfUnit
      have hlt := s.unitAt_lt (Nat.pos_of_ne_zero hk)
      rwa [unitAt_zero] at hlt
    · exact s.frequency.yearOfUnit_mono (s.unitAt_mono h)

theorem monthsCount_of_le {j k : Nat} (h : j ≤ k) (hk : s.monthsCount k = true) :
    s.monthsCount j = true := by
  unfold monthsCount at hk ⊢
  simp only [Bool.or_eq_true, List.all_eq_true, List.mem_range] at hk ⊢
  exact hk.imp_right fun hall i hi ↦ hall i (Nat.lt_of_lt_of_le hi h)

/-- The walk does not skip a visit and come back to a later one. -/
theorem reaches_of_le {j k : Nat} (h : j ≤ k) (hk : s.reaches k = true) : s.reaches j = true := by
  have hseed : s.seed.year ≤ s.yearAt j := s.yearAt_mono (Nat.zero_le j)
  have hmono := s.yearAt_mono h
  unfold reaches at hk ⊢
  simp only [Bool.or_eq_true, Bool.and_eq_true, beq_iff_eq, decide_eq_true_eq] at hk ⊢
  rcases hk with hyear | ⟨⟨hmin, hmax⟩, hcount⟩
  · exact .inl (by omega)
  · exact .inr ⟨⟨hmin, by omega⟩, s.monthsCount_of_le h hcount⟩

/-! ## The dates of the walk -/

/-- The schedule falls on a date: some visit that it reaches gives the date. -/
def Occurs (d : Date) : Prop :=
  ∃ k, s.reaches k = true ∧ d ∈ s.datesAt k

variable {s}

theorem mem_datesAt_iff {k : Nat} {d : Date} :
    d ∈ s.datesAt k ↔ (s.frequency.unitOf d = s.unitAt k ∧
      s.recurrence.pattern.Selects s.seed d) ∧ s.seed ≤ d := by
  simp only [datesAt, List.mem_filter, decide_eq_true_eq]
  exact and_congr_left fun _ ↦ Repeat.mem_datesIn_iff

theorem unitOf_of_mem_datesAt {k : Nat} {d : Date} (h : d ∈ s.datesAt k) :
    s.frequency.unitOf d = s.unitAt k :=
  (mem_datesAt_iff.mp h).1.1

theorem lt_of_mem_datesAt {j k : Nat} {d e : Date} (h : j < k) (hd : d ∈ s.datesAt j)
    (he : e ∈ s.datesAt k) : d < e := by
  apply s.frequency.lt_of_unitOf_lt
  rw [unitOf_of_mem_datesAt hd, unitOf_of_mem_datesAt he]
  exact s.unitAt_lt h

/-- What one visit gives in a window. -/
theorem firstDates_visit (window : Window) (k limit : Nat) :
    FirstDates limit (fun d ↦ d ∈ window ∧ d ∈ s.datesAt k)
      (((s.datesAt k).filter window.contains).take limit) := by
  have hsorted : ((s.datesAt k).filter window.contains).Pairwise (· < ·) :=
    ((Repeat.pairwise_datesIn _ _ _).sublist List.filter_sublist).sublist List.filter_sublist
  refine (FirstDates.take hsorted limit).congr fun d ↦ ?_
  rw [List.mem_filter, and_comm]
  rfl

/-- What some visits from the `k`-th on give in a window. -/
theorem firstDates_visits (window : Window) (visits k limit : Nat) :
    FirstDates limit
      (fun d ↦ d ∈ window ∧
        ∃ j, (k ≤ j ∧ j < k + visits) ∧ s.reaches j = true ∧ d ∈ s.datesAt j)
      (s.datesFrom window visits k limit) := by
  induction visits generalizing k limit with
  | zero =>
    apply FirstDates.nil
    rintro d ⟨-, j, hj, -⟩
    omega
  | succ visits ih =>
    unfold datesFrom
    split
    · rename_i hstop
      rw [Bool.or_eq_true] at hstop
      rcases hstop with hlimit | hreach
      · rw [of_decide_eq_true hlimit]
        exact FirstDates.zero
      · apply FirstDates.nil
        rintro d ⟨-, j, hj, hreaches, -⟩
        rw [s.reaches_of_le hj.1 hreaches] at hreach
        exact absurd hreach (by decide)
    · rename_i hgo
      have hreach : s.reaches k = true := by
        by_cases h : s.reaches k = true
        · exact h
        · simp [h] at hgo
      have hrest := ih (k + 1) (limit - (((s.datesAt k).filter window.contains).take limit).length)
      refine ((firstDates_visit window k limit).append hrest ?_).congr fun d ↦ ?_
      · rintro d ⟨-, hd⟩ e ⟨-, j, hj, -, he⟩
        exact lt_of_mem_datesAt (by omega) hd he
      · constructor
        · rintro (⟨hwindow, hd⟩ | ⟨hwindow, j, hj, hreaches, hd⟩)
          · exact ⟨hwindow, k, by omega, hreach, hd⟩
          · exact ⟨hwindow, j, by omega, hreaches, hd⟩
        · rintro ⟨hwindow, j, hj, hreaches, hd⟩
          by_cases heq : j = k
          · exact .inl ⟨hwindow, heq ▸ hd⟩
          · exact .inr ⟨hwindow, j, by omega, hreaches, hd⟩

/-- The search in a window finds the first dates of the walk in it. -/
theorem firstDates_spec (s : Schedule) (window : Window) (limit : Nat) :
    FirstDates limit (fun d ↦ d ∈ window ∧ s.Occurs d) (s.firstDates window limit) := by
  refine (firstDates_visits window _ _ limit).congr fun d ↦ and_congr_right fun hwindow ↦ ?_
  obtain ⟨hstart, hstop⟩ := Window.mem_iff.mp hwindow
  constructor
  · rintro ⟨j, -, hj⟩
    exact ⟨j, hj⟩
  · rintro ⟨j, hreaches, hd⟩
    have hunit := unitOf_of_mem_datesAt hd
    have hfrom : s.visitFrom (s.frequency.unitOf window.start) ≤ j := by
      rw [visitFrom_le_iff, ← hunit]
      exact s.frequency.unitOf_mono hstart
    refine ⟨j, ⟨hfrom, ?_⟩, hreaches, hd⟩
    rw [s.lt_add_visits_iff hfrom, ← hunit]
    exact s.frequency.unitOf_mono hstop

end Schedule

end MeetingCalendar
