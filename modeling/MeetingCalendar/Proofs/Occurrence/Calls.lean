import MeetingCalendar.Proofs.Occurrence.Expansion
import MeetingCalendar.Proofs.Occurrence.Source

/-!
# The answers of a pager

A pager over a source that lists the dates with a property answers the calls it gets with the first
of these dates in its window, one after the other, and with none ever after.  Every call ends: a
page without dates is the last one, so no call needs a second page.

What a pager still has to answer is described by `Pager.Gives`.  A call takes the first date away
and keeps the rest; a sequence of calls follows by induction.  An expansion, which reads its schedule
through a cursor, gives the same answers.
-/

namespace MeetingCalendar

namespace Pager

/-- What a pager knows of its source and of the dates it has fetched: they are in order, no more
than it may still give, and in front of where it goes on. -/
structure Consistent (lower upper : Bool) (P : Date → Prop) (p : Pager) : Prop where
  lists : p.source.Lists lower upper P
  before_eq : p.before = some (Instant.endOfDay p.window.stop)
  start_le : ∀ d, Instant.From lower p.after (Instant.midnight d) → p.window.start ≤ d
  ascending : p.pending.Pairwise (· < ·)
  length_le : p.pending.length ≤ p.remaining
  lt_ahead : ∀ d ∈ p.pending, ∀ e, Instant.From lower p.after (Instant.midnight e) → d < e

/-- A date is still to come: it has been fetched, or a later page has it. -/
def Holds (lower : Bool) (P : Date → Prop) (p : Pager) (d : Date) : Prop :=
  d ∈ p.pending ∨ p.finished = false ∧
    Instant.From lower p.after (Instant.midnight d) ∧ d ≤ p.window.stop ∧ P d

/-- The dates that a pager still has to answer. -/
structure Gives (lower upper : Bool) (P : Date → Prop) (p : Pager) (dates : List Date) : Prop where
  consistent : p.Consistent lower upper P
  firstDates : FirstDates p.remaining (p.Holds lower P) dates

variable {lower upper : Bool} {P : Date → Prop} {p : Pager} {dates : List Date}

/-! ## Fetching a page -/

/-- The greatest number that can be sent is more than a page. -/
theorem pageLimit_eq (remaining : Nat) : pageLimit remaining = min remaining Cursor.pageSize := by
  unfold pageLimit maxLimit Cursor.pageSize
  split
  · rfl
  · omega

def page (p : Pager) : List Date :=
  p.source.all p.after p.before (pageLimit p.remaining)

/-- The instant behind which a pager goes on after the page. -/
def afterPage (p : Pager) : Option Int :=
  match p.page.getLast? with
  | some last => Instant.shift? (Instant.midnight last) 1
  | none => p.after

theorem fetch_eq (p : Pager) : p.fetch = { p with
    after := p.afterPage
    pending := p.pending ++ p.page.filter p.window.contains
    finished := p.finished || p.page.length < pageLimit p.remaining || p.page.isEmpty ||
      p.afterPage.isNone } :=
  rfl

theorem Consistent.firstDates_page (hp : p.Consistent lower upper P) :
    FirstDates (min p.remaining Cursor.pageSize)
      (fun d ↦ Instant.From lower p.after (Instant.midnight d) ∧ d ≤ p.window.stop ∧ P d)
      p.page := by
  rw [← pageLimit_eq]
  refine (hp.lists p.after p.before _).congr fun d ↦ ?_
  rw [hp.before_eq, Instant.upTo_endOfDay_iff, and_assoc]

/-- The whole page lies in the window. -/
theorem Consistent.filter_page (hp : p.Consistent lower upper P) :
    p.page.filter p.window.contains = p.page := by
  rw [List.filter_eq_self]
  intro d hd
  obtain ⟨hfrom, hstop, -⟩ := hp.firstDates_page.holds d hd
  exact Window.mem_iff.mpr ⟨hp.start_le d hfrom, hstop⟩

/-- A pager goes on behind the page, and not in front of where it was. -/
theorem Consistent.from_of_afterPage (hp : p.Consistent lower upper P) {e : Date}
    (he : Instant.From lower p.afterPage (Instant.midnight e)) :
    Instant.From lower p.after (Instant.midnight e) ∧ ∀ d ∈ p.page, d < e := by
  have hpage := hp.firstDates_page
  unfold afterPage at he
  cases hlast : p.page.getLast? with
  | none =>
    rw [hlast] at he
    rw [List.getLast?_eq_none_iff.mp hlast]
    exact ⟨he, by simp⟩
  | some last =>
    rw [hlast, Instant.from_shift?_one_iff] at he
    have hfrom := (hpage.holds last (List.mem_of_getLast? hlast)).1
    exact ⟨hfrom.trans (Instant.midnight_lt_iff.mpr he),
      fun d hd ↦ Date.lt_of_le_of_lt (hpage.le_of_getLast? hlast hd) he⟩

theorem Consistent.fetch (hp : p.Consistent lower upper P) (hempty : p.pending = []) :
    p.fetch.Consistent lower upper P := by
  have hpage := hp.firstDates_page
  rw [fetch_eq, hempty, hp.filter_page]
  exact {
    lists := hp.lists
    before_eq := hp.before_eq
    start_le d hd := hp.start_le d (hp.from_of_afterPage hd).1
    ascending := hpage.ascending
    length_le := Nat.le_trans hpage.length_le (Nat.min_le_left _ _)
    lt_ahead d hd e he := (hp.from_of_afterPage he).2 d hd }

/-- A pager goes on after a page just when the page is full and has a date. -/
theorem finished_fetch_eq_false_iff (hunfinished : p.finished = false) :
    p.fetch.finished = false ↔ pageLimit p.remaining ≤ p.page.length ∧ p.page ≠ [] := by
  have hafter : p.page ≠ [] → p.afterPage.isNone = false := by
    intro hne
    unfold afterPage
    rw [List.getLast?_eq_some_getLast hne]
    simp only [Instant.shift?_midnight_one, Option.isNone_some]
  rw [fetch_eq]
  simp only [hunfinished, Bool.false_or, Bool.or_eq_false_iff, decide_eq_false_iff_not, Nat.not_lt,
    List.isEmpty_eq_false_iff]
  exact ⟨fun h ↦ h.1, fun h ↦ ⟨h, hafter h.2⟩⟩

/-- Fetching does not change what a pager holds. -/
theorem Consistent.holds_fetch_iff (hp : p.Consistent lower upper P) (hempty : p.pending = [])
    (hunfinished : p.finished = false) (hremaining : 0 < p.remaining) {e : Date} :
    p.fetch.Holds lower P e ↔ p.Holds lower P e := by
  have hpage := hp.firstDates_page
  have hpos : 0 < min p.remaining Cursor.pageSize := by
    unfold Cursor.pageSize
    omega
  unfold Holds
  rw [finished_fetch_eq_false_iff hunfinished, pageLimit_eq, fetch_eq, hempty, hp.filter_page]
  simp only [hunfinished, List.nil_append, List.not_mem_nil, false_or, true_and]
  constructor
  · rintro (hmem | ⟨-, hfrom, hstop, he⟩)
    · exact hpage.holds e hmem
    · exact ⟨(hp.from_of_afterPage hfrom).1, hstop, he⟩
  · rintro ⟨hfrom, hstop, he⟩
    rcases hpage.mem_or_getLast?_lt hpos ⟨hfrom, hstop, he⟩ with hmem | ⟨hfull, last, hlast, hlt⟩
    · exact .inl hmem
    · refine .inr ⟨⟨Nat.le_of_eq hfull.symm, ?_⟩, ?_, hstop, he⟩
      · exact List.ne_nil_of_mem (List.mem_of_getLast? hlast)
      · unfold afterPage
        rw [hlast]
        exact Instant.from_shift?_one_iff.mpr hlt

/-- A pager that got an empty page is finished. -/
theorem Consistent.finished_fetch (hp : p.Consistent lower upper P)
    (hunfinished : p.finished = false) (hpage : p.fetch.pending = []) :
    p.fetch.finished = true := by
  rw [← Bool.not_eq_false, finished_fetch_eq_false_iff hunfinished]
  rw [fetch_eq, hp.filter_page, List.append_eq_nil_iff] at hpage
  exact fun h ↦ h.2 hpage.2

/-! ## Answering a call -/

/-- The pager behind the first date that has been fetched. -/
def afterPending (p : Pager) : Pager :=
  { p with pending := p.pending.tail, remaining := p.remaining - 1 }

theorem answer?_of_pending {d : Date} {more : List Date} (hremaining : 0 < p.remaining)
    (hpending : p.pending = d :: more) : p.answer? = some (some d, p.afterPending) := by
  unfold answer?
  rw [if_neg (Nat.ne_of_gt hremaining)]
  simp [hpending, afterPending]

theorem answer?_of_done (hdone : p.remaining = 0 ∨ p.pending = [] ∧ p.finished = true) :
    p.answer? = some (none, p) := by
  unfold answer?
  rcases hdone with hzero | ⟨hempty, hfinished⟩
  · rw [if_pos hzero]
  · simp [hempty, hfinished]

theorem answer?_of_unfinished (hremaining : 0 < p.remaining) (hempty : p.pending = [])
    (hunfinished : p.finished = false) : p.answer? = none := by
  unfold answer?
  rw [if_neg (Nat.ne_of_gt hremaining)]
  simp [hempty, hunfinished]

theorem next_of_answer? {found : Option Date × Pager} (h : p.answer? = some found) (pages : Nat) :
    p.next pages = some found := by
  cases pages with
  | zero => exact h
  | succ pages =>
    rw [next, h]
    rfl

theorem next_of_answer?_none (h : p.answer? = none) (pages : Nat) :
    p.next (pages + 1) = p.fetch.next pages := by
  rw [next, h]
  rfl

theorem Consistent.afterPending (hp : p.Consistent lower upper P) :
    p.afterPending.Consistent lower upper P where
  lists := hp.lists
  before_eq := hp.before_eq
  start_le := hp.start_le
  ascending := hp.ascending.tail
  length_le := by
    have hlength := hp.length_le
    simp only [Pager.afterPending, List.length_tail]
    omega
  lt_ahead d hd := hp.lt_ahead d (List.mem_of_mem_tail hd)

theorem holds_iff_of_pending {d e : Date} {more : List Date} (hpending : p.pending = d :: more) :
    p.Holds lower P e ↔ e = d ∨ p.afterPending.Holds lower P e := by
  simp only [Holds, afterPending, hpending, List.tail_cons, List.mem_cons, or_assoc]

theorem Consistent.lt_of_holds_afterPending (hp : p.Consistent lower upper P) {d e : Date}
    {more : List Date} (hpending : p.pending = d :: more)
    (he : p.afterPending.Holds lower P e) : d < e := by
  simp only [Holds, Pager.afterPending, hpending, List.tail_cons] at he
  rcases he with hmem | ⟨-, hfrom, -, -⟩
  · have hsorted := hp.ascending
    rw [hpending] at hsorted
    exact List.rel_of_pairwise_cons hsorted hmem
  · have hd : d ∈ p.pending := by
      rw [hpending]
      exact List.mem_cons_self
    exact hp.lt_ahead d hd e hfrom

/-- A date that has been fetched is the earliest one, and the others are left. -/
theorem Gives.afterPending (hp : p.Gives lower upper P dates) {d : Date} {more : List Date}
    (hremaining : 0 < p.remaining) (hpending : p.pending = d :: more) :
    dates.head? = some d ∧ p.afterPending.Gives lower upper P dates.tail := by
  obtain ⟨n, hn⟩ := Nat.exists_eq_add_of_lt hremaining
  rw [Nat.zero_add] at hn
  have hrest : p.afterPending.remaining = n := by
    simp only [Pager.afterPending, hn, Nat.add_sub_cancel]
  have hdates := hp.firstDates.congr fun e ↦ holds_iff_of_pending hpending (e := e)
  rw [hn] at hdates
  obtain ⟨hhead, htail⟩ :=
    hdates.tail fun e ↦ hp.consistent.lt_of_holds_afterPending hpending
  exact ⟨hhead, hp.consistent.afterPending, hrest ▸ htail⟩

/-- A pager without a date to give has none to answer. -/
theorem Gives.eq_nil (hp : p.Gives lower upper P dates)
    (hdone : p.remaining = 0 ∨ p.pending = [] ∧ p.finished = true) : dates = [] := by
  rcases hdone with hzero | ⟨hempty, hfinished⟩
  · exact List.eq_nil_of_length_eq_zero (Nat.le_zero.mp (hzero ▸ hp.firstDates.length_le))
  · refine List.eq_nil_iff_forall_not_mem.mpr fun d hd ↦ ?_
    have hholds := hp.firstDates.holds d hd
    simp [Holds, hempty, hfinished] at hholds

theorem Gives.fetch (hp : p.Gives lower upper P dates) (hempty : p.pending = [])
    (hunfinished : p.finished = false) (hremaining : 0 < p.remaining) :
    p.fetch.Gives lower upper P dates where
  consistent := hp.consistent.fetch hempty
  firstDates := hp.firstDates.congr fun _ ↦
    (hp.consistent.holds_fetch_iff hempty hunfinished hremaining).symm

/-- A pager with a date to give answers with it, and a pager that has none to come with that. -/
theorem Gives.answer (hp : p.Gives lower upper P dates)
    (hready : p.remaining = 0 ∨ (p.pending = [] → p.finished = true)) :
    ∃ p', p.answer? = some (dates.head?, p') ∧ p'.Gives lower upper P dates.tail := by
  have hnone : p.remaining = 0 ∨ p.pending = [] ∧ p.finished = true →
      ∃ p', p.answer? = some (dates.head?, p') ∧ p'.Gives lower upper P dates.tail := by
    intro hdone
    have hnil := hp.eq_nil hdone
    subst hnil
    exact ⟨p, answer?_of_done hdone, hp⟩
  rcases Nat.eq_zero_or_pos p.remaining with hzero | hremaining
  · exact hnone (.inl hzero)
  cases hpending : p.pending with
  | nil => exact hnone (hready.imp_right fun hfinished ↦ ⟨hpending, hfinished hpending⟩)
  | cons d more =>
    obtain ⟨hhead, htail⟩ := hp.afterPending hremaining hpending
    rw [hhead]
    exact ⟨p.afterPending, answer?_of_pending hremaining hpending, htail⟩

/-- A call ends with at most one page.  It answers with the first date that is left, if there is
one, and keeps the others. -/
theorem Gives.next (hp : p.Gives lower upper P dates) (pages : Nat) :
    ∃ p', p.next (pages + 1) = some (dates.head?, p') ∧ p'.Gives lower upper P dates.tail := by
  by_cases hready : p.remaining = 0 ∨ (p.pending = [] → p.finished = true)
  · obtain ⟨p', hanswer, hrest⟩ := hp.answer hready
    exact ⟨p', next_of_answer? hanswer _, hrest⟩
  · obtain ⟨hremaining, hready⟩ := not_or.mp hready
    obtain ⟨hempty, hfinished⟩ := Classical.not_imp.mp hready
    have hunfinished : p.finished = false := Bool.eq_false_iff.mpr hfinished
    have hpos := Nat.pos_of_ne_zero hremaining
    obtain ⟨p', hanswer, hrest⟩ := (hp.fetch hempty hunfinished hpos).answer
      (.inr (hp.consistent.finished_fetch hunfinished))
    rw [next_of_answer?_none (answer?_of_unfinished hpos hempty hunfinished)]
    exact ⟨p', next_of_answer? hanswer _, hrest⟩

/-- The answers of any number of calls. -/
theorem Gives.calls (hp : p.Gives lower upper P dates) (pages n : Nat) :
    ∃ p', p.calls (pages + 1) n = some ((List.range n).map (dates[·]?), p') ∧
      p'.Gives lower upper P (dates.drop n) := by
  induction n generalizing p dates with
  | zero => exact ⟨p, rfl, hp⟩
  | succ n ih =>
    obtain ⟨p', hnext, hrest⟩ := hp.next pages
    obtain ⟨p'', hcalls, hlast⟩ := ih hrest
    refine ⟨p'', ?_, by rwa [List.drop_tail] at hlast⟩
    have hanswers : (List.range (n + 1)).map (dates[·]?) =
        dates.head? :: (List.range n).map (dates.tail[·]?) := by
      simp only [List.range_succ_eq_map, List.map_cons, List.map_map, List.head?_eq_getElem?,
        List.getElem?_tail, Function.comp_def]
    rw [hanswers]
    simp [Pager.calls, hnext, hcalls]

/-- A new pager has the first dates in its window to answer. -/
theorem gives_start {source : DateSource} (hsource : source.Lists lower upper P) {window : Window}
    {max : Nat} (hdates : FirstDates max (fun d ↦ d ∈ window ∧ P d) dates) :
    (start source window max).Gives lower upper P dates := by
  have hconsistent : (start source window max).Consistent lower upper P := {
    lists := hsource
    before_eq := rfl
    start_le := fun d hd ↦ Instant.from_shift?_neg_one_iff.mp hd
    ascending := .nil
    length_le := Nat.zero_le _
    lt_ahead := by simp [start] }
  refine ⟨hconsistent, ?_⟩
  change FirstDates max _ dates
  rcases Nat.eq_zero_or_pos max with rfl | hmax
  · rw [List.eq_nil_of_length_eq_zero (Nat.le_zero.mp hdates.length_le)]
    exact FirstDates.zero
  · refine hdates.congr fun d ↦ ?_
    simp only [Holds, start, List.not_mem_nil, false_or, Instant.from_shift?_neg_one_iff,
      Window.mem_iff, and_assoc, Bool.or_eq_false_iff, beq_eq_false_iff_ne]
    constructor
    · rintro ⟨hstart, hstop, hd⟩
      refine ⟨?_, Nat.ne_of_gt hmax, hstart, hstop, hd⟩
      exact decide_eq_false (Date.not_lt.mpr (Date.le_trans hstart hstop))
    · rintro ⟨-, -, hd⟩
      exact hd

end Pager

/-! ## Agreement with expansions -/

namespace Expansion

/-- A pager over the dates of a schedule answers call after call with the dates of the expansion,
each once and in order, and with none behind them.  No call needs more than one page.  The cursor
gives the same dates. -/
theorem calls_eq_toList (e : Expansion) {lower upper : Bool} {source : DateSource}
    (hsource : source.Lists lower upper e.schedule.Occurs) :
    FirstDates e.max (fun d ↦ d ∈ e.window ∧ e.schedule.Occurs d) e.toList ∧
      ∀ n, (∀ pages, ((Pager.start source e.window e.max).calls (pages + 1) n).map Prod.fst =
          some ((List.range n).map (e.toList[·]?))) ∧
        (e.cursor.take n).1 = e.toList.take n ∧
        (e.cursor.take n).2.next?.map Prod.fst = e.toList[n]? := by
  have hgives := Pager.gives_start hsource e.firstDates_toList
  refine ⟨e.firstDates_toList, fun n ↦ ?_⟩
  obtain ⟨hfront, hrest⟩ := e.cursor.take_spec n
  refine ⟨fun pages ↦ ?_, hfront, ?_⟩
  · obtain ⟨p, hcalls, -⟩ := hgives.calls pages n
    rw [hcalls]
    rfl
  · rw [← Cursor.head?_toList, hrest, List.head?_drop]
    rfl

/-- Every day of a leap year, up to the first date of the second page. -/
theorem calls_eq_toList_daily :
    let seed : Date :=
      ⟨2024, 1, 1, by decide, by decide, by decide, by decide, by decide, by decide⟩
    let stop : Date :=
      ⟨2024, 12, 31, by decide, by decide, by decide, by decide, by decide, by decide⟩
    let r : Recurrence := ⟨1, .daily, by decide, by decide, rfl⟩
    let e : Expansion := { schedule := ⟨r, seed⟩, window := ⟨seed, stop⟩, max := 257 }
    e.schedule.source.Lists true true e.schedule.Occurs ∧
      e.toList.length = 257 ∧
      FirstDates e.max (fun d ↦ d ∈ e.window ∧ e.schedule.Occurs d) e.toList ∧
      ∀ n, (∀ pages,
          ((Pager.start e.schedule.source e.window e.max).calls (pages + 1) n).map Prod.fst =
            some ((List.range n).map (e.toList[·]?))) ∧
        (e.cursor.take n).1 = e.toList.take n ∧
        (e.cursor.take n).2.next?.map Prod.fst = e.toList[n]? := by
  intro seed stop r e
  have hlists := e.schedule.lists_source
  exact ⟨hlists, by decide +kernel, e.calls_eq_toList hlists⟩

end Expansion

end MeetingCalendar
