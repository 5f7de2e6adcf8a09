import MeetingCalendar.Occurrence.Expansion
import MeetingCalendar.Proofs.Occurrence.Visit

/-!
# Reading an expansion page by page

A cursor holds the dates of the pages it has fetched and knows where to fetch the next one.  What a
cursor still has to give is described by `Cursor.Holds`: the fetched dates and, unless the search is
over, the dates of the schedule from the place where it resumes.  Giving a date takes just that date
away and fetching a page changes nothing, so a cursor that is read to its end gives the first dates
of what it holds.  No date is lost or repeated at the border of two pages.
-/

namespace MeetingCalendar

namespace Cursor

/-- The dates that a cursor has fetched are in order, no more than it may still give, and in front of
the place where it resumes. -/
structure Consistent (c : Cursor) : Prop where
  ascending : c.pending.Pairwise (· < ·)
  length_le : c.pending.length ≤ c.remaining
  lt_resume : ∀ d ∈ c.pending, ∀ start, c.resume = some start → d < start

/-- A date is still to come: it has been fetched, or the search will find it. -/
def Holds (c : Cursor) (d : Date) : Prop :=
  d ∈ c.pending ∨ c.finished = false ∧
    ∃ start, c.resume = some start ∧ d ∈ (⟨start, c.stop⟩ : Window) ∧ c.schedule.Occurs d

variable {c : Cursor}

/-! ## Reading to the end -/

theorem remaining_fetch (c : Cursor) : c.fetch.remaining = c.remaining := by
  unfold fetch
  split <;> rfl

theorem remaining_of_pop? {d : Date} {rest : Cursor} (h : c.pop? = some (d, rest)) :
    rest.remaining = c.remaining - 1 := by
  unfold pop? at h
  split at h
  · exact absurd h nofun
  · cases h
    rfl

/-- A date that is given counts. -/
theorem remaining_of_next?_some {d : Date} {rest : Cursor} (h : c.next? = some (d, rest)) :
    c.remaining = rest.remaining + 1 := by
  unfold next? at h
  split at h
  · exact absurd h nofun
  · split at h
    · have hrest := remaining_of_pop? h
      omega
    · split at h
      · exact absurd h nofun
      · have hrest := remaining_of_pop? h
        rw [remaining_fetch] at hrest
        omega

theorem takeOnto_eq (taken : List Date) (n : Nat) (c : Cursor) :
    takeOnto taken n c = (taken.reverse ++ (c.take n).1, (c.take n).2) := by
  induction n generalizing taken c with
  | zero => simp [take, takeOnto]
  | succ n ih =>
    unfold take takeOnto
    cases c.next? with
    | none => simp
    | some found =>
      obtain ⟨d, rest⟩ := found
      simp only [ih (d :: taken), ih [d], List.reverse_cons, List.reverse_nil, List.nil_append,
        List.append_assoc]

theorem take_of_next?_none (h : c.next? = none) (n : Nat) : c.take n = ([], c) := by
  unfold take
  cases n with
  | zero => rfl
  | succ n => simp [takeOnto, h]

theorem take_succ_of_next?_some {d : Date} {rest : Cursor} (h : c.next? = some (d, rest))
    (n : Nat) : c.take (n + 1) = (d :: (rest.take n).1, (rest.take n).2) := by
  rw [take, takeOnto, h]
  exact takeOnto_eq [d] n rest

theorem toList_of_next?_none (h : c.next? = none) : c.toList = [] := by
  rw [toList, take_of_next?_none h]

theorem toList_of_next?_some {d : Date} {rest : Cursor} (h : c.next? = some (d, rest)) :
    c.toList = d :: rest.toList := by
  rw [toList, remaining_of_next?_some h, take_succ_of_next?_some h]
  rfl

/-- Reading only depends on what is given next. -/
theorem toList_congr {c' : Cursor} (h : c.next? = c'.next?) : c.toList = c'.toList := by
  cases hnext : c'.next? with
  | none => rw [toList_of_next?_none hnext, toList_of_next?_none (h.trans hnext)]
  | some found => rw [toList_of_next?_some hnext, toList_of_next?_some (h.trans hnext)]

/-- The next date is the head of what is left. -/
theorem head?_toList (c : Cursor) : c.toList.head? = c.next?.map Prod.fst := by
  cases hnext : c.next? with
  | none =>
    rw [toList_of_next?_none hnext]
    rfl
  | some found =>
    rw [toList_of_next?_some hnext]
    rfl

/-- Taking dates gives the front of what is left and leaves the rest. -/
theorem take_spec (n : Nat) (c : Cursor) :
    (c.take n).1 = c.toList.take n ∧ (c.take n).2.toList = c.toList.drop n := by
  induction n generalizing c with
  | zero => exact ⟨rfl, rfl⟩
  | succ n ih =>
    cases hnext : c.next? with
    | none =>
      rw [take_of_next?_none hnext, toList_of_next?_none hnext]
      exact ⟨rfl, rfl⟩
    | some found =>
      obtain ⟨d, rest⟩ := found
      obtain ⟨hfront, hrest⟩ := ih rest
      rw [take_succ_of_next?_some hnext, toList_of_next?_some hnext]
      exact ⟨congrArg (d :: ·) hfront, hrest⟩

/-! ## Giving a date -/

/-- The cursor behind the first date that has been fetched. -/
def afterPending (c : Cursor) : Cursor :=
  { c with pending := c.pending.tail, remaining := c.remaining - 1 }

theorem next?_of_pending {d : Date} {more : List Date} (hremaining : 0 < c.remaining)
    (hpending : c.pending = d :: more) : c.next? = some (d, c.afterPending) := by
  unfold next?
  rw [if_neg (Nat.ne_of_gt hremaining)]
  simp [hpending, pop?, afterPending]

theorem Consistent.afterPending (hc : c.Consistent) : c.afterPending.Consistent where
  ascending := hc.ascending.tail
  length_le := by
    have hlength := hc.length_le
    simp only [Cursor.afterPending, List.length_tail]
    omega
  lt_resume d hd := hc.lt_resume d (List.mem_of_mem_tail hd)

theorem holds_iff_of_pending {d e : Date} {more : List Date} (hpending : c.pending = d :: more) :
    c.Holds e ↔ e = d ∨ c.afterPending.Holds e := by
  simp only [Holds, afterPending, hpending, List.tail_cons, List.mem_cons, or_assoc]

theorem lt_of_holds_afterPending (hc : c.Consistent) {d e : Date} {more : List Date}
    (hpending : c.pending = d :: more) (he : c.afterPending.Holds e) : d < e := by
  simp only [Holds, Cursor.afterPending, hpending, List.tail_cons] at he
  rcases he with hmem | ⟨-, start, hresume, hwindow, -⟩
  · have hsorted := hc.ascending
    rw [hpending] at hsorted
    exact List.rel_of_pairwise_cons hsorted hmem
  · have hd : d ∈ c.pending := by
      rw [hpending]
      exact List.mem_cons_self ..
    exact Date.lt_of_lt_of_le (hc.lt_resume d hd start hresume) (Window.mem_iff.mp hwindow).1

/-! ## Fetching a page -/

/-- The search resumes on the day behind the last date of the page. -/
theorem resume_of_page {page : List Date} {start : Date}
    (h : page.getLast?.bind Date.next? = some start) :
    ∃ last, page.getLast? = some last ∧ start.dayNumber = last.dayNumber + 1 := by
  obtain ⟨last, hlast, hnext⟩ := Option.bind_eq_some_iff.mp h
  exact ⟨last, hlast, Date.next?_eq_some_iff.mp hnext⟩

section Page

variable {P : Date → Prop} {page : List Date} {start stop : Date} {limit : Nat}

/-- A date that a page leaves out is found from where the search resumes. -/
theorem mem_or_resume_of_page
    (hpage : FirstDates limit (fun d ↦ d ∈ (⟨start, stop⟩ : Window) ∧ P d) page)
    (hpos : 0 < limit) {e : Date} (hwindow : e ∈ (⟨start, stop⟩ : Window)) (he : P e) :
    e ∈ page ∨ limit ≤ page.length ∧ ∃ next, page.getLast?.bind Date.next? = some next ∧
      e ∈ (⟨next, stop⟩ : Window) := by
  rcases hpage.mem_or_getLast?_lt hpos ⟨hwindow, he⟩ with hmem | ⟨hfull, last, hlast, hlt⟩
  · exact .inl hmem
  right
  cases hnext : last.next? with
  | none => exact absurd (Date.le_of_next?_eq_none hnext e) (Date.not_le.mpr hlt)
  | some next =>
    have hnumber := Date.next?_eq_some_iff.mp hnext
    have hle : next ≤ e := by
      rw [Date.lt_iff] at hlt
      rw [Date.le_iff]
      omega
    exact ⟨Nat.le_of_eq hfull.symm, next, by rw [hlast, Option.bind_some, hnext],
      Window.mem_iff.mpr ⟨hle, (Window.mem_iff.mp hwindow).2⟩⟩

/-- Where the search resumes is not in front of where it started. -/
theorem mem_window_of_resume
    (hpage : FirstDates limit (fun d ↦ d ∈ (⟨start, stop⟩ : Window) ∧ P d) page)
    {next e : Date} (hnext : page.getLast?.bind Date.next? = some next)
    (hwindow : e ∈ (⟨next, stop⟩ : Window)) : e ∈ (⟨start, stop⟩ : Window) := by
  obtain ⟨last, hlast, hnumber⟩ := resume_of_page hnext
  have hstart : start ≤ last :=
    (Window.mem_iff.mp (hpage.holds last (List.mem_of_getLast? hlast)).1).1
  obtain ⟨hle, hstop⟩ := Window.mem_iff.mp hwindow
  refine Window.mem_iff.mpr ⟨?_, hstop⟩
  change next.dayNumber ≤ e.dayNumber at hle
  rw [Date.le_iff] at hstart ⊢
  change start.dayNumber ≤ e.dayNumber
  omega

end Page

/-- The page that is fetched from a date on. -/
def page (c : Cursor) (start : Date) : List Date :=
  c.schedule.firstDates ⟨start, c.stop⟩ (min c.remaining pageSize)

theorem firstDates_page (c : Cursor) (start : Date) :
    FirstDates (min c.remaining pageSize)
      (fun d ↦ d ∈ (⟨start, c.stop⟩ : Window) ∧ c.schedule.Occurs d) (c.page start) :=
  c.schedule.firstDates_spec _ _

theorem fetch_of_resume_none (h : c.resume = none) : c.fetch = { c with finished := true } := by
  unfold fetch
  rw [h]

theorem fetch_of_resume {start : Date} (h : c.resume = some start) :
    c.fetch = { c with
      pending := c.pending ++ c.page start
      resume := (c.page start).getLast?.bind Date.next?
      finished := c.finished || (c.page start).length < min c.remaining pageSize ||
        ((c.page start).getLast?.bind Date.next?).isNone } := by
  unfold fetch
  rw [h]
  rfl

theorem Consistent.fetch (hempty : c.pending = []) : c.fetch.Consistent := by
  cases hresume : c.resume with
  | none =>
    rw [fetch_of_resume_none hresume]
    exact ⟨by simp [hempty], by simp [hempty], by simp [hempty]⟩
  | some start =>
    have hpage := c.firstDates_page start
    rw [fetch_of_resume hresume, hempty]
    refine ⟨hpage.ascending, ?_, ?_⟩
    · exact Nat.le_trans hpage.length_le (Nat.min_le_left _ _)
    · intro d hd next hnext
      obtain ⟨last, hlast, hnumber⟩ := resume_of_page hnext
      have hle := hpage.le_of_getLast? hlast hd
      rw [Date.le_iff] at hle
      rw [Date.lt_iff]
      omega

/-- Fetching does not change what a cursor holds. -/
theorem holds_fetch_iff (hempty : c.pending = []) (hunfinished : c.finished = false)
    (hremaining : 0 < c.remaining) {e : Date} : c.fetch.Holds e ↔ c.Holds e := by
  cases hresume : c.resume with
  | none =>
    rw [fetch_of_resume_none hresume]
    simp [Holds, hempty, hresume]
  | some start =>
    have hpage := c.firstDates_page start
    have hpos : 0 < min c.remaining pageSize := by
      have : 0 < pageSize := by decide
      omega
    rw [fetch_of_resume hresume]
    simp only [Holds, hempty, hunfinished, hresume, List.nil_append, Bool.false_or,
      List.not_mem_nil, false_or, true_and, Option.some.injEq, exists_eq_left',
      Bool.or_eq_false_iff, decide_eq_false_iff_not, Nat.not_lt, Option.isNone_eq_false_iff]
    constructor
    · rintro (hmem | ⟨-, next, hnext, hwindow, hoccurs⟩)
      · exact hpage.holds e hmem
      · exact ⟨mem_window_of_resume hpage hnext hwindow, hoccurs⟩
    · rintro ⟨hwindow, hoccurs⟩
      rcases mem_or_resume_of_page hpage hpos hwindow hoccurs with hmem | ⟨hfull, next, hnext, hin⟩
      · exact .inl hmem
      · exact .inr ⟨⟨hfull, by rw [hnext]; rfl⟩, next, hnext, hin, hoccurs⟩

/-- An empty page ends the search. -/
theorem finished_fetch (hpage : c.fetch.pending = []) : c.fetch.finished = true := by
  cases hresume : c.resume with
  | none => rw [fetch_of_resume_none hresume]
  | some start =>
    rw [fetch_of_resume hresume] at hpage ⊢
    have hnil : c.page start = [] := (List.append_eq_nil_iff.mp hpage).2
    simp [hnil]

theorem next?_fetch (hempty : c.pending = []) (hunfinished : c.finished = false)
    (hremaining : 0 < c.remaining) : c.next? = c.fetch.next? := by
  unfold next?
  rw [remaining_fetch, if_neg (Nat.ne_of_gt hremaining), if_neg (Nat.ne_of_gt hremaining)]
  simp only [hempty, hunfinished, List.isEmpty_nil, Bool.not_true, Bool.false_eq_true, if_false]
  cases hpending : c.fetch.pending with
  | nil => simp [pop?, hpending, finished_fetch hpending]
  | cons d more => simp

/-! ## What a cursor gives -/

/-- A cursor that is read to its end gives the first dates of those it holds. -/
theorem firstDates_toList (hc : c.Consistent) : FirstDates c.remaining c.Holds c.toList := by
  generalize hn : c.remaining = n
  induction n generalizing c with
  | zero =>
    have hnone : c.next? = none := by
      unfold next?
      rw [if_pos hn]
    rw [toList_of_next?_none hnone]
    exact FirstDates.zero
  | succ n ih =>
    -- Reading a date that has been fetched leaves one date less to give.
    have hgive : ∀ {c : Cursor} {d : Date} {more : List Date}, c.Consistent →
        c.remaining = n + 1 → c.pending = d :: more → FirstDates (n + 1) c.Holds c.toList := by
      intro c d more hc hn hpending
      have hrest : c.afterPending.remaining = n := by
        simp only [Cursor.afterPending, hn, Nat.add_sub_cancel]
      have hnext := next?_of_pending (by omega) hpending
      rw [toList_of_next?_some hnext]
      have hlater := fun e he ↦ lt_of_holds_afterPending hc (e := e) hpending he
      exact ((ih hc.afterPending hrest).cons hlater).congr fun e ↦
        (holds_iff_of_pending hpending).symm
    cases hpending : c.pending with
    | cons d more => exact hgive hc hn hpending
    | nil =>
      cases hfinished : c.finished with
      | true =>
        have hnone : c.next? = none := by simp [next?, hpending, hfinished]
        rw [toList_of_next?_none hnone]
        exact FirstDates.nil (by simp [Holds, hpending, hfinished])
      | false =>
        have hpos : 0 < c.remaining := by omega
        have hholds := fun e ↦ holds_fetch_iff hpending hfinished hpos (e := e)
        rw [toList_congr (next?_fetch hpending hfinished hpos)]
        cases hpage : c.fetch.pending with
        | cons d more =>
          exact (hgive (.fetch hpending) (c.remaining_fetch.trans hn) hpage).congr hholds
        | nil =>
          have hnone : c.fetch.next? = none := by
            simp [next?, hpage, finished_fetch hpage]
          rw [toList_of_next?_none hnone]
          refine FirstDates.nil fun e he ↦ ?_
          rw [← hholds] at he
          simp [Holds, hpage, finished_fetch hpage] at he

end Cursor

end MeetingCalendar
