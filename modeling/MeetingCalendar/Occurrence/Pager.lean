import MeetingCalendar.Occurrence.Expansion

/-!
# Paging through a source of dates

A source of dates answers one kind of question: which are the first dates whose midnights lie
between two instants?  A pager reads such a source page by page.  It keeps an instant behind which it
goes on, one second in front of the first midnight of the window at the start and one second behind
the last midnight of a page later, so it does not matter whether the source takes a bound itself to
lie inside.  Instants are numbers of seconds, within the calendar only; beyond its ends there is none.

A call asks for pages until there is a date to give or nothing more to come.  That this ends cannot
be seen from the pager, which does not know how its source answers, so a call is told how many pages
it may fetch.
-/

namespace MeetingCalendar

namespace Instant

def secondsPerDay : Int := 86400

def midnight (d : Date) : Int :=
  secondsPerDay * d.dayNumber

def endOfDay (d : Date) : Int :=
  midnight d + (secondsPerDay - 1)

/-- The instant a number of seconds later, if it is in the calendar. -/
def shift? (t seconds : Int) : Option Int :=
  if midnight Date.first ≤ t + seconds ∧ t + seconds ≤ endOfDay Date.last then some (t + seconds)
  else none

end Instant

/-- What can be asked for the first dates between two instants, `limit` at most; a bound may be
left out. -/
structure DateSource where
  all : (after before : Option Int) → (limit : Nat) → List Date

/-- A place in the dates that a source has in a window.  `pending` are fetched and not yet given,
and `finished` says that there are no more pages. -/
structure Pager where
  source : DateSource
  window : Window
  before : Option Int
  after : Option Int
  pending : List Date
  remaining : Nat
  finished : Bool

namespace Pager

/-- The pager in front of the first date of a window, which gives `max` dates at most. -/
def start (source : DateSource) (window : Window) (max : Nat) : Pager where
  source := source
  window := window
  before := some (Instant.endOfDay window.stop)
  after := Instant.shift? (Instant.midnight window.start) (-1)
  pending := []
  remaining := max
  finished := window.isEmpty || max == 0

/-- The greatest number that can be sent to a source. -/
def maxLimit : Nat := 65535

/-- The number of dates to ask for: a full page, unless fewer may still be given. -/
def pageLimit (remaining : Nat) : Nat :=
  if remaining ≤ maxLimit then min remaining Cursor.pageSize else Cursor.pageSize

/-- Fetches the next page.  A page that is not full is the last one. -/
def fetch (p : Pager) : Pager :=
  let limit := pageLimit p.remaining
  let page := p.source.all p.after p.before limit
  let after :=
    match page.getLast? with
    | some last => Instant.shift? (Instant.midnight last) 1
    | none => p.after
  { p with
    after
    pending := p.pending ++ page.filter p.window.contains
    finished := p.finished || page.length < limit || page.isEmpty || after.isNone }

/-- The answer that needs no other page, a date or that there is none, and the pager behind it. -/
def answer? (p : Pager) : Option (Option Date × Pager) :=
  if p.remaining = 0 then some (none, p)
  else
    match p.pending with
    | d :: pending => some (some d, { p with pending, remaining := p.remaining - 1 })
    | [] => if p.finished then some (none, p) else none

/-- The answer of a call and the pager behind it, if the call ends with at most so many pages. -/
def next : (pages : Nat) → Pager → Option (Option Date × Pager)
  | 0, p => p.answer?
  | pages + 1, p => p.answer? <|> next pages p.fetch

/-- The answers of `n` calls and the pager behind them. -/
def calls (pages : Nat) : (n : Nat) → Pager → Option (List (Option Date) × Pager)
  | 0, p => some ([], p)
  | n + 1, p => do
    let (answer, p) ← p.next pages
    let (answers, p) ← calls pages n p
    some (answer :: answers, p)

end Pager

namespace Schedule

/-- The first day that starts at an instant or later. -/
def firstDay? : Option Int → Option Date
  | none => some Date.first
  | some t =>
    Date.ofDayNumber? (max Date.first.dayNumber (-(-t / Instant.secondsPerDay)))

def lastDay? : Option Int → Option Date
  | none => some Date.last
  | some t => Date.ofDayNumber? (min Date.last.dayNumber (t / Instant.secondsPerDay))

/-- A schedule as a source of dates, in which bounds lie inside. -/
def source (s : Schedule) : DateSource where
  all after before limit :=
    match firstDay? after, lastDay? before with
    | some start, some stop => s.firstDates ⟨start, stop⟩ limit
    | _, _ => []

end Schedule

end MeetingCalendar
