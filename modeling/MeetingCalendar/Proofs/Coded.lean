import MeetingCalendar.Entity
import MeetingCalendar.Frequency
import MeetingCalendar.Ordinal

/-!
# Codes that requests may use

Every code between the least and the greatest one of a choice stands for an alternative, so a code
is refused only when it is out of this range.
-/

namespace MeetingCalendar

namespace Coded

/-- A choice in which every code that requests may use stands for an alternative. -/
class Complete (α : Type) [Coded α] : Prop where
  exists_ofCode? : ∀ n, accepts α n = true → ∃ v : α, ofCode? n = some v

variable {α : Type} [Coded α]

theorem accepts_iff {n : Int} : accepts α n = true ↔ minCode α ≤ n ∧ n ≤ maxCode α := by
  simp [accepts]

theorem accepted?_eq_some_iff {n : Int} {v : α} :
    accepted? α n = some v ↔ accepts α n = true ∧ ofCode? n = some v := by
  unfold accepted?
  cases accepts α n <;> simp

theorem accepts_of_accepted? {n : Int} {v : α} (h : accepted? α n = some v) :
    accepts α n = true :=
  (accepted?_eq_some_iff.mp h).1

theorem exists_accepted?_iff [Complete α] {n : Int} :
    (∃ v, accepted? α n = some v) ↔ accepts α n = true := by
  simp only [accepted?_eq_some_iff]
  constructor
  · rintro ⟨v, haccepts, -⟩
    exact haccepts
  · intro haccepts
    obtain ⟨v, hv⟩ := Complete.exists_ofCode? n haccepts
    exact ⟨v, haccepts, hv⟩

theorem accepted?_eq_none_iff [Complete α] {n : Int} :
    accepted? α n = none ↔ accepts α n = false := by
  rw [Option.eq_none_iff_forall_ne_some, ← Bool.not_eq_true, ← exists_accepted?_iff]
  exact not_exists.symm

end Coded

instance : Coded.Complete EntityType where
  exists_ofCode? n h := by
    have hrange : 1 ≤ n ∧ n ≤ 7 := Coded.accepts_iff.mp h
    obtain rfl | rfl | rfl | rfl | rfl | rfl | rfl :
      n = 1 ∨ n = 2 ∨ n = 3 ∨ n = 4 ∨ n = 5 ∨ n = 6 ∨ n = 7 := by omega
    all_goals exact ⟨_, rfl⟩

instance : Coded.Complete RemindBy where
  exists_ofCode? n h := by
    have hrange : 1 ≤ n ∧ n ≤ 2 := Coded.accepts_iff.mp h
    obtain rfl | rfl : n = 1 ∨ n = 2 := by omega
    all_goals exact ⟨_, rfl⟩

instance : Coded.Complete Frequency where
  exists_ofCode? n h := by
    have hrange : 1 ≤ n ∧ n ≤ 4 := Coded.accepts_iff.mp h
    obtain rfl | rfl | rfl | rfl : n = 1 ∨ n = 2 ∨ n = 3 ∨ n = 4 := by omega
    all_goals exact ⟨_, rfl⟩

instance : Coded.Complete Weekday where
  exists_ofCode? _ h := ⟨_, if_pos (Coded.accepts_iff.mp h)⟩

instance : Coded.Complete Ordinal where
  exists_ofCode? n h := by
    have hrange : 1 ≤ n ∧ n ≤ 4 := Coded.accepts_iff.mp h
    obtain rfl | rfl | rfl | rfl : n = 1 ∨ n = 2 ∨ n = 3 ∨ n = 4 := by omega
    all_goals exact ⟨_, rfl⟩

theorem Ordinal.ofCode?_eq_some_iff {place : Int} {ordinal : Ordinal} :
    Coded.ofCode? place = some ordinal ↔ place = ordinal.number := by
  constructor
  · intro h
    obtain ⟨hplace, h⟩ := Option.ite_none_right_eq_some.mp h
    suffices hnumber : place.toNat = ordinal.number by omega
    unfold ofNumber? at h
    split at h
    all_goals cases h
    all_goals assumption
  · rintro rfl
    cases ordinal <;> rfl

theorem Ordinal.number_bounds (ordinal : Ordinal) : 1 ≤ ordinal.number ∧ ordinal.number ≤ 5 := by
  cases ordinal <;> decide

/-- A request cannot ask for the fifth place. -/
theorem Ordinal.ne_fifth_of_accepted? {n : Int} {ordinal : Ordinal}
    (h : Coded.accepted? Ordinal n = some ordinal) : ordinal ≠ .fifth := by
  obtain ⟨haccepts, hordinal⟩ := Coded.accepted?_eq_some_iff.mp h
  have hrange : 1 ≤ n ∧ n ≤ 4 := Coded.accepts_iff.mp haccepts
  obtain rfl | rfl | rfl | rfl : n = 1 ∨ n = 2 ∨ n = 3 ∨ n = 4 := by omega
  all_goals
    cases hordinal
    exact nofun

/-! ## The codes of alternatives -/

theorem Frequency.accepted?_code (frequency : Frequency) :
    Coded.accepted? Frequency (Coded.code frequency) = some frequency := by
  cases frequency <;> rfl

theorem Weekday.accepted?_code (day : Weekday) :
    Coded.accepted? Weekday (Coded.code day) = some day := by
  cases day <;> rfl

theorem Ordinal.accepted?_code {ordinal : Ordinal} (h : ordinal ≠ .fifth) :
    Coded.accepted? Ordinal (Coded.code ordinal) = some ordinal := by
  cases ordinal with
  | fifth => exact absurd rfl h
  | _ => rfl

end MeetingCalendar
