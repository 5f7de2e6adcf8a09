import MeetingCalendar.Occurrence.Pager
import MeetingCalendar.Proofs.Occurrence.Visit
import Mathlib.Tactic.SplitIfs

/-!
# Sources of dates

`DateSource.Lists` says what a source owes to its readers: asked for dates between two instants, it
gives the first of the dates with a property whose midnights lie there.  Whether a bound lies inside
itself is left to the source.  A pager only uses bounds one second away from a midnight, or the last
second of a day, and with these it makes no difference.

A schedule is such a source.
-/

namespace MeetingCalendar

namespace Instant

/-- An instant respects a lower bound; `inside` says whether the bound does. -/
def From (inside : Bool) (bound : Option Int) (t : Int) : Prop :=
  ∀ a, bound = some a → a < t ∨ inside = true ∧ a = t

/-- An instant respects an upper bound; `inside` says whether the bound does. -/
def UpTo (inside : Bool) (bound : Option Int) (t : Int) : Prop :=
  ∀ b, bound = some b → t < b ∨ inside = true ∧ t = b

variable {inside : Bool} {d e start stop : Date}

theorem midnight_lt_iff : midnight d < midnight e ↔ d < e := by
  unfold midnight secondsPerDay
  rw [Date.lt_iff]
  omega

theorem midnight_le_iff : midnight d ≤ midnight e ↔ d ≤ e := by
  unfold midnight secondsPerDay
  rw [Date.le_iff]
  omega

/-- A day has its second second, also the last one. -/
theorem shift?_midnight_one (d : Date) : shift? (midnight d) 1 = some (midnight d + 1) := by
  have hfirst := midnight_le_iff.mpr d.first_le
  have hlast := midnight_le_iff.mpr d.le_last
  unfold shift? endOfDay secondsPerDay
  rw [if_pos (by omega)]

/-- Only the first day has no second in front of it. -/
theorem shift?_midnight_neg_one (d : Date) :
    shift? (midnight d) (-1) = if d = Date.first then none else some (midnight d - 1) := by
  have hlast := midnight_le_iff.mpr d.le_last
  unfold shift? endOfDay
  split_ifs with hinside hfirst hfirst
  · subst hfirst
    omega
  · rfl
  · rfl
  · have hlt : Date.first < d := by
      rw [← Date.not_le]
      exact fun hle ↦ hfirst (Date.le_antisymm hle d.first_le)
    have hdays := midnight_lt_iff.mpr hlt
    unfold secondsPerDay at *
    omega

/-- What starts behind the second in front of a day starts on that day or later. -/
theorem from_shift?_neg_one_iff :
    From inside (shift? (midnight start) (-1)) (midnight d) ↔ start ≤ d := by
  rw [shift?_midnight_neg_one]
  unfold From midnight secondsPerDay
  rw [Date.le_iff]
  split_ifs with hfirst
  · subst hfirst
    exact ⟨fun _ ↦ d.first_le, fun _ a ha ↦ absurd ha nofun⟩
  · simp only [Option.some.injEq, forall_eq']
    omega

/-- What starts behind the second second of a day starts on a later day. -/
theorem from_shift?_one_iff :
    From inside (shift? (midnight start) 1) (midnight d) ↔ start < d := by
  rw [shift?_midnight_one]
  unfold From midnight secondsPerDay
  rw [Date.lt_iff]
  simp only [Option.some.injEq, forall_eq']
  omega

/-- What starts up to the last second of a day starts on that day or earlier. -/
theorem upTo_endOfDay_iff : UpTo inside (some (endOfDay stop)) (midnight d) ↔ d ≤ stop := by
  unfold UpTo endOfDay midnight secondsPerDay
  rw [Date.le_iff]
  simp only [Option.some.injEq, forall_eq']
  omega

/-- What is later than an instant behind a bound is behind the bound. -/
theorem From.trans {bound : Option Int} {t t' : Int} (h : From inside bound t)
    (hlt : t < t') : From inside bound t' := by
  intro a ha
  rcases h a ha with h | ⟨-, rfl⟩
  · exact .inl (Int.lt_trans h hlt)
  · exact .inl hlt

end Instant

/-- The source gives the first dates with a property whose midnights respect the bounds. -/
def DateSource.Lists (source : DateSource) (lower upper : Bool) (P : Date → Prop) : Prop :=
  ∀ after before limit, FirstDates limit
    (fun d ↦ (Instant.From lower after (Instant.midnight d) ∧
      Instant.UpTo upper before (Instant.midnight d)) ∧ P d)
    (source.all after before limit)

namespace Schedule

variable {after before : Option Int} {d : Date}

/-- The first day of a bound is that of the days which respect it. -/
theorem from_iff_firstDay? : Instant.From true after (Instant.midnight d) ↔
    ∃ start, firstDay? after = some start ∧ start ≤ d := by
  cases after with
  | none => exact ⟨fun _ ↦ ⟨Date.first, rfl, d.first_le⟩, fun _ a ha ↦ absurd ha nofun⟩
  | some t =>
    simp only [Instant.From, firstDay?, Instant.midnight, Instant.secondsPerDay, true_and,
      Option.some.injEq, forall_eq', Date.le_iff]
    constructor
    · intro ht
      have hfirst := Date.le_iff.mp d.first_le
      have hle : max Date.first.dayNumber (-(-t / 86400)) ≤ d.dayNumber := by omega
      obtain ⟨start, hstart⟩ := Date.exists_ofDayNumber?_eq_some (Int.le_max_left _ _) hle
      exact ⟨start, hstart, Date.dayNumber_of_ofDayNumber? hstart ▸ hle⟩
    · rintro ⟨start, hstart, hle⟩
      have hnumber := Date.dayNumber_of_ofDayNumber? hstart
      omega

/-- The last day of a bound is that of the days which respect it. -/
theorem upTo_iff_lastDay? : Instant.UpTo true before (Instant.midnight d) ↔
    ∃ stop, lastDay? before = some stop ∧ d ≤ stop := by
  cases before with
  | none => exact ⟨fun _ ↦ ⟨Date.last, rfl, d.le_last⟩, fun _ b hb ↦ absurd hb nofun⟩
  | some t =>
    simp only [Instant.UpTo, lastDay?, Instant.midnight, Instant.secondsPerDay, true_and,
      Option.some.injEq, forall_eq', Date.le_iff]
    constructor
    · intro ht
      have hlast := Date.le_iff.mp d.le_last
      have hle : d.dayNumber ≤ min Date.last.dayNumber (t / 86400) := by omega
      obtain ⟨stop, hstop⟩ := Date.exists_ofDayNumber?_eq_some hle (Int.min_le_left _ _)
      exact ⟨stop, hstop, Date.dayNumber_of_ofDayNumber? hstop ▸ hle⟩
    · rintro ⟨stop, hstop, hle⟩
      have hnumber := Date.dayNumber_of_ofDayNumber? hstop
      omega

/-- A schedule lists the dates on which it falls. -/
theorem lists_source (s : Schedule) : s.source.Lists true true s.Occurs := by
  intro after before limit
  simp only [from_iff_firstDay?, upTo_iff_lastDay?, source]
  cases firstDay? after with
  | none => exact FirstDates.nil (by simp)
  | some start =>
    cases lastDay? before with
    | none => exact FirstDates.nil (by simp)
    | some stop =>
      refine (s.firstDates_spec ⟨start, stop⟩ limit).congr fun d ↦ ?_
      simp [Window.mem_iff]

end Schedule

end MeetingCalendar
