import MeetingCalendar.Date.Basic

/-!
# Windows of dates

A window is an inclusive range of dates.  A window that ends before it starts is empty.
-/

namespace MeetingCalendar

/-- The dates from `start` to `stop`, both included. -/
structure Window where
  start : Date
  stop : Date
  deriving DecidableEq, Repr

namespace Window

def day (d : Date) : Window := ⟨d, d⟩

/-- The window from a day to the last date. -/
def starting (d : Date) : Window := ⟨d, Date.last⟩

def isEmpty (w : Window) : Bool :=
  w.stop < w.start

def contains (w : Window) (d : Date) : Bool :=
  w.start ≤ d && d ≤ w.stop

instance : Membership Date Window := ⟨fun w d ↦ w.contains d = true⟩

instance (d : Date) (w : Window) : Decidable (d ∈ w) :=
  inferInstanceAs (Decidable (w.contains d = true))

/-- The window that ends no later than a date. -/
def clippedTo (w : Window) (stop : Date) : Window :=
  ⟨w.start, w.stop.earlier stop⟩

theorem mem_iff {w : Window} {d : Date} : d ∈ w ↔ w.start ≤ d ∧ d ≤ w.stop := by
  change w.contains d = true ↔ _
  simp [contains]

/-- A window clipped to a date holds the dates of the window up to that date. -/
theorem mem_clippedTo {w : Window} {stop d : Date} :
    d ∈ w.clippedTo stop ↔ d ∈ w ∧ d ≤ stop := by
  simp only [mem_iff, clippedTo, Date.earlier, Date.le_iff, Date.lt_iff]
  split <;> omega

end Window

end MeetingCalendar
