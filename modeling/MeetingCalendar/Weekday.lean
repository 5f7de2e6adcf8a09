/-!
# Weekdays

The seven days of a week that starts on Monday, their names and abbreviations, and sets of them.
-/

namespace MeetingCalendar

inductive Weekday where
  | monday
  | tuesday
  | wednesday
  | thursday
  | friday
  | saturday
  | sunday
  deriving DecidableEq, Repr, Inhabited

namespace Weekday

def all : List Weekday :=
  [monday, tuesday, wednesday, thursday, friday, saturday, sunday]

/-- Days since the Monday that starts the week. -/
def index : Weekday → Nat
  | monday => 0
  | tuesday => 1
  | wednesday => 2
  | thursday => 3
  | friday => 4
  | saturday => 5
  | sunday => 6

def ofIndex (n : Nat) : Weekday :=
  match n % 7 with
  | 0 => monday
  | 1 => tuesday
  | 2 => wednesday
  | 3 => thursday
  | 4 => friday
  | 5 => saturday
  | _ => sunday

def name : Weekday → String
  | monday => "Monday"
  | tuesday => "Tuesday"
  | wednesday => "Wednesday"
  | thursday => "Thursday"
  | friday => "Friday"
  | saturday => "Saturday"
  | sunday => "Sunday"

def key : Weekday → String
  | monday => "monday"
  | tuesday => "tuesday"
  | wednesday => "wednesday"
  | thursday => "thursday"
  | friday => "friday"
  | saturday => "saturday"
  | sunday => "sunday"

/-- The two-letter abbreviation of recurrence rules. -/
def code : Weekday → String
  | monday => "MO"
  | tuesday => "TU"
  | wednesday => "WE"
  | thursday => "TH"
  | friday => "FR"
  | saturday => "SA"
  | sunday => "SU"

def shortName : Weekday → String
  | monday => "Mon"
  | tuesday => "Tue"
  | wednesday => "Wed"
  | thursday => "Thu"
  | friday => "Fri"
  | saturday => "Sat"
  | sunday => "Sun"

def ofCode? (code : String) : Option Weekday :=
  all.find? fun w ↦ w.code == code

def ofKey? (key : String) : Option Weekday :=
  all.find? fun w ↦ w.key == key

theorem index_lt (w : Weekday) : w.index < 7 := by
  cases w <;> decide

@[simp]
theorem ofIndex_index (w : Weekday) : ofIndex w.index = w := by
  cases w <;> rfl

theorem index_ofIndex (n : Nat) : (ofIndex n).index = n % 7 := by
  have h : n % 7 < 7 := Nat.mod_lt _ (by decide)
  unfold ofIndex
  split <;> simp_all [index]
  omega

theorem index_injective {v w : Weekday} (h : v.index = w.index) : v = w := by
  rw [← ofIndex_index v, h, ofIndex_index]

theorem mem_all (w : Weekday) : w ∈ all := by
  cases w <;> decide

end Weekday

/-- A set of weekdays. -/
structure WeekdaySet where
  monday : Bool
  tuesday : Bool
  wednesday : Bool
  thursday : Bool
  friday : Bool
  saturday : Bool
  sunday : Bool
  deriving DecidableEq, Repr

namespace WeekdaySet

def contains (s : WeekdaySet) : Weekday → Bool
  | .monday => s.monday
  | .tuesday => s.tuesday
  | .wednesday => s.wednesday
  | .thursday => s.thursday
  | .friday => s.friday
  | .saturday => s.saturday
  | .sunday => s.sunday

instance : Membership Weekday WeekdaySet := ⟨fun s w ↦ s.contains w = true⟩

instance (w : Weekday) (s : WeekdaySet) : Decidable (w ∈ s) :=
  inferInstanceAs (Decidable (s.contains w = true))

def filter (p : Weekday → Bool) : WeekdaySet :=
  ⟨p .monday, p .tuesday, p .wednesday, p .thursday, p .friday, p .saturday, p .sunday⟩

def ofList (days : List Weekday) : WeekdaySet :=
  filter days.contains

def singleton (w : Weekday) : WeekdaySet :=
  ofList [w]

/-- The weekdays of the set, from Monday to Sunday. -/
def toList (s : WeekdaySet) : List Weekday :=
  Weekday.all.filter s.contains

def isEmpty (s : WeekdaySet) : Bool :=
  s.toList.isEmpty

@[simp]
theorem contains_filter (p : Weekday → Bool) (w : Weekday) : (filter p).contains w = p w := by
  cases w <;> rfl

theorem mem_iff_contains {s : WeekdaySet} {w : Weekday} : w ∈ s ↔ s.contains w = true :=
  Iff.rfl

@[simp]
theorem mem_ofList {days : List Weekday} {w : Weekday} : w ∈ ofList days ↔ w ∈ days := by
  simp [mem_iff_contains, ofList]

@[simp]
theorem mem_toList {s : WeekdaySet} {w : Weekday} : w ∈ s.toList ↔ w ∈ s := by
  simp [toList, Weekday.mem_all, mem_iff_contains]

/-- Sets with the same weekdays are equal. -/
theorem ext {s t : WeekdaySet} (h : ∀ w, w ∈ s ↔ w ∈ t) : s = t := by
  have key : ∀ w, s.contains w = t.contains w := fun w ↦
    Bool.eq_iff_iff.mpr (h w)
  cases s
  cases t
  simp only [mk.injEq]
  exact ⟨key .monday, key .tuesday, key .wednesday, key .thursday, key .friday, key .saturday,
    key .sunday⟩

@[simp]
theorem ofList_toList (s : WeekdaySet) : ofList s.toList = s :=
  ext fun w ↦ by simp

end WeekdaySet

end MeetingCalendar
