import MeetingCalendar.Occurrence.Schedule
import MeetingCalendar.Settings.Basic

/-!
# Expansions

An expansion lists the dates of a schedule inside a window, up to a greatest number.  It is read
through a cursor, which fetches the dates page by page and gives them one at a time.  Cursors are
values: the same cursor can be read twice and gives the same dates.
-/

namespace MeetingCalendar

/-- The dates of a schedule in a window, `max` at most. -/
structure Expansion where
  schedule : Schedule
  window : Window
  max : Nat := defaultMaxOccurrences

/-- A place in the dates of an expansion.  `pending` are fetched and not yet given, the search for
more goes on at `resume` and ends at `stop`, and `finished` says that there are no more. -/
structure Cursor where
  schedule : Schedule
  stop : Date
  resume : Option Date
  pending : List Date
  remaining : Nat
  finished : Bool

namespace Cursor

/-- The greatest number of dates that are fetched at once. -/
def pageSize : Nat := 256

def fetch (c : Cursor) : Cursor :=
  match c.resume with
  | none => { c with finished := true }
  | some start =>
    let limit := min c.remaining pageSize
    let page := c.schedule.firstDates ⟨start, c.stop⟩ limit
    let resume := page.getLast?.bind Date.next?
    { c with
      pending := c.pending ++ page
      resume
      finished := c.finished || page.length < limit || resume.isNone }

def pop? (c : Cursor) : Option (Date × Cursor) :=
  match c.pending with
  | [] => none
  | d :: pending => some (d, { c with pending, remaining := c.remaining - 1 })

def next? (c : Cursor) : Option (Date × Cursor) :=
  if c.remaining = 0 then none
  else if !c.pending.isEmpty then c.pop?
  else if c.finished then none
  else c.fetch.pop?

/-- Takes up to `n` dates in front of `taken`, which holds the dates before them in reverse. -/
def takeOnto (taken : List Date) : Nat → Cursor → List Date × Cursor
  | 0, c => (taken.reverse, c)
  | n + 1, c =>
    match c.next? with
    | none => (taken.reverse, c)
    | some (d, c) => takeOnto (d :: taken) n c

/-- The next `n` dates, or as many as there are, and the cursor behind them. -/
def take (n : Nat) (c : Cursor) : List Date × Cursor :=
  takeOnto [] n c

def toList (c : Cursor) : List Date :=
  (c.take c.remaining).1

end Cursor

namespace Expansion

def cursor (e : Expansion) : Cursor where
  schedule := e.schedule
  stop := e.window.stop
  resume := some e.window.start
  pending := []
  remaining := e.max
  finished := e.window.isEmpty || e.max == 0

def toList (e : Expansion) : List Date :=
  e.cursor.toList

end Expansion

namespace Recurrence

/-- The dates of a recurrence from a seed inside a window, up to the default number. -/
def occurrences (r : Recurrence) (seed : Date) (window : Window) : List Date :=
  Expansion.toList { schedule := ⟨r, seed⟩, window }

def nextOccurrenceAfter (r : Recurrence) (seed d : Date) : Option Date := do
  let start ← d.next?
  let (next, _) ← (Expansion.cursor { schedule := ⟨r, seed⟩, window := .starting start }).next?
  some next

def isOccurrence (r : Recurrence) (seed d : Date) : Bool :=
  match (Expansion.cursor { schedule := ⟨r, seed⟩, window := .day d }).next? with
  | some (found, _) => found = d
  | none => false

end Recurrence

end MeetingCalendar
