import MeetingCalendar.Proofs.Pattern.RoundTrip
import MeetingCalendar.Request.Basic

/-!
# Dates and times in the format of a request

A request that names the pattern of a layout for its dates reads what the layout writes as the date
that it was written for, and likewise for times.  The serialised forms of dates and times are such
texts.  The pattern for the other kind of value need only be a pattern: it may be named by the
request or be the configured one.
-/

namespace MeetingCalendar

open Pattern

/-- A text reads as a date in every request that names a pattern for its dates. -/
def RequestPolicy.ReadsDate (policy : RequestPolicy) (pattern text : String) (d : Date) : Prop :=
  ∀ (fields : List (String × Json)) (name : String),
    fields.lookup Parameter.dateFormat = some (.text pattern) →
    fields.lookup name = some (.text text) →
    (∃ times, Pattern.ofText (Request.patternText fields Parameter.timeFormat
      policy.defaultTimePattern) = .ok times) →
    ∃ r, Request.ofFields policy fields = .ok r ∧ r.date name = .value d (.text text)

/-- A text reads as a time in every request that names a pattern for its times. -/
def RequestPolicy.ReadsTime (policy : RequestPolicy) (pattern text : String) (t : TimeOfDay) :
    Prop :=
  ∀ (fields : List (String × Json)) (name : String),
    fields.lookup Parameter.timeFormat = some (.text pattern) →
    fields.lookup name = some (.text text) →
    (∃ dates, Pattern.ofText (Request.patternText fields Parameter.dateFormat
      policy.defaultDatePattern) = .ok dates) →
    ∃ r, Request.ofFields policy fields = .ok r ∧ r.time name = .value t (.text text)

namespace Pattern

theorem exists_ofText {text : String} {tokens : List Token}
    (h : tokensOf text.toList = .ok tokens) :
    ∃ pattern, Pattern.ofText text = .ok pattern ∧ pattern.tokens = tokens := by
  unfold Pattern.ofText
  split
  · next found hfound => exact ⟨_, rfl, Except.ok.inj (hfound.symm.trans h)⟩
  · next run hrun =>
    rw [h] at hrun
    cases hrun

namespace Layout

variable {layout : Layout} {letter : Char}

theorem isBlank_text (h : layout.Names letter) : Text.isBlank layout.text = false := by
  obtain ⟨length, hrun⟩ := h
  obtain ⟨hmem, hpos, -⟩ := layout.proper _ hrun
  refine Text.isBlank_eq_false_of_mem (c := letter) ?_
    (isBlankChar_of_isAlpha (Piece.isAlpha_of_mem_fieldLetters hmem).1)
  rw [text, String.toList_ofList]
  exact List.mem_flatMap.mpr ⟨_, hrun, List.mem_replicate.mpr ⟨Nat.ne_of_gt hpos, rfl⟩⟩

theorem isBlank_written (h : layout.Names letter) (m : Moment) :
    Text.isBlank (layout.written m) = false := by
  obtain ⟨length, hrun⟩ := h
  obtain ⟨field, -, -, -, hwritten⟩ := Piece.exists_field_of_run (layout.proper _ hrun)
  obtain ⟨hne, hword⟩ := field.isWord_written m
  obtain ⟨c, hc⟩ := List.exists_mem_of_ne_nil _ hne
  refine Text.isBlank_eq_false_of_mem (c := c) ?_ (hword c hc)
  rw [written, String.toList_ofList]
  exact List.mem_flatMap.mpr ⟨_, hrun, by rwa [hwritten m]⟩

/-- The pattern that a request names by a layout. -/
theorem patternText_eq (h : layout.Names letter) {fields : List (String × Json)} {key : String}
    (hkey : fields.lookup key = some (.text layout.text)) (default : String) :
    Request.patternText fields key default = Text.trim layout.text := by
  rw [Request.patternText, hkey]
  simp only [isBlank_text h, Bool.false_eq_true, if_false]

/-- The text of a layout is a pattern, which reads the date and the time that the layout names. -/
theorem exists_ofText_trim (layout : Layout) :
    ∃ pattern, Pattern.ofText (Text.trim layout.text) = .ok pattern ∧
      ∀ m : Moment, (0 ≤ m.date.year ∧ m.date.year ≤ 9999) ∨ layout.EndsYears →
        (layout.NamesDate → pattern.readDate? (layout.written m) = some m.date) ∧
        (layout.NamesTime m.time → pattern.readTime? (layout.written m) = some m.time) := by
  obtain ⟨tokens, htokens, hmem, hread⟩ := layout.read?_written
  obtain ⟨pattern, hpattern, rfl⟩ : ∃ pattern,
      Pattern.ofText (Text.trim layout.text) = .ok pattern ∧ pattern.tokens = tokens := by
    apply exists_ofText
    rwa [Text.trim, String.toList_ofList, Layout.text, String.toList_ofList]
  refine ⟨pattern, hpattern, fun m hyears ↦ ⟨fun hnames ↦ ?_, fun hnames ↦ ?_⟩⟩
  · obtain ⟨hyear, hmonth, hday⟩ := hnames.mem_tokens
    rw [readDate?, readDateBy?, hread m hyears, Option.bind_some]
    refine date?_said ?_ ?_ ?_
    · simpa [hmem] using hyear
    · simpa [NamesMonth, hmem] using hmonth
    · simpa [hmem] using hday
  · obtain ⟨hhour, hminute, hsecond⟩ := hnames.mem_tokens
    rw [readTime?, readTimeBy?, hread m hyears, Option.bind_some]
    refine time?_said ?_ ?_ ?_
    · simpa [NamesHour, hmem] using hhour
    · simpa [hmem] using hminute
    · simpa [hmem] using hsecond

/-- The layout of serialised dates. -/
def isoDate : Layout :=
  ⟨[.run 'y' 4, .plain '-', .run 'M' 2, .plain '-', .run 'd' 2], by decide, by decide⟩

/-- The layout of serialised times. -/
def isoTime : Layout :=
  ⟨[.run 'H' 2, .plain ':', .run 'm' 2, .plain ':', .run 's' 2], by decide, by decide⟩

theorem written_isoDate (m : Moment) : isoDate.written m = m.date.toText := by
  simp [written, isoDate, Piece.written, Date.toText, Date.toChars]

theorem written_isoTime (m : Moment) : isoTime.written m = m.time.toText := by
  simp [written, isoTime, Piece.written, TimeOfDay.toText, TimeOfDay.toChars]

end Layout

end Pattern

namespace RequestPolicy

variable (policy : RequestPolicy) {layout : Layout} {m : Moment}

theorem readsDate_written (hnames : layout.NamesDate)
    (hyears : (0 ≤ m.date.year ∧ m.date.year ≤ 9999) ∨ layout.EndsYears) :
    policy.ReadsDate layout.text (layout.written m) m.date := by
  rintro fields name hformat hname ⟨times, htimes⟩
  obtain ⟨dates, hdates, hread⟩ := layout.exists_ofText_trim
  have hdate := (hread m hyears).1 hnames
  refine ⟨⟨fields, dates, times⟩, ?_, ?_⟩
  · unfold Request.ofFields
    simp only [Layout.patternText_eq hnames.day hformat, hdates, htimes]
    rfl
  · rw [Request.date, Request.get?, hname]
    simp only [Reading.of, Json.asDate, Layout.isBlank_written hnames.day, hdate, Parsed.ofOption,
      Bool.false_eq_true, if_false]

theorem readsTime_written (hnames : layout.NamesTime m.time)
    (hyears : (0 ≤ m.date.year ∧ m.date.year ≤ 9999) ∨ layout.EndsYears) :
    policy.ReadsTime layout.text (layout.written m) m.time := by
  rintro fields name hformat hname ⟨dates, hdates⟩
  obtain ⟨times, htimes, hread⟩ := layout.exists_ofText_trim
  have htime := (hread m hyears).2 hnames
  refine ⟨⟨fields, dates, times⟩, ?_, ?_⟩
  · unfold Request.ofFields
    simp only [Layout.patternText_eq hnames.minute hformat, hdates, htimes]
    rfl
  · rw [Request.time, Request.get?, hname]
    simp only [Reading.of, Json.asTime, Layout.isBlank_written hnames.minute, htime,
      Parsed.ofOption, Bool.false_eq_true, if_false]

/-- What a layout writes for a moment is read back under it: as the date if the layout names one,
and as the time if it names one.  A year needs a sign from 10000 on and before 0, and must then be
ended by what follows.  In particular serialised dates and times are read back. -/
theorem reads_written (policy : RequestPolicy) :
    (∀ (layout : Layout) (m : Moment), layout.NamesDate →
      (0 ≤ m.date.year ∧ m.date.year ≤ 9999) ∨ layout.EndsYears →
        policy.ReadsDate layout.text (layout.written m) m.date) ∧
    (∀ d : Date, policy.ReadsDate "yyyy-MM-dd" d.toText d) ∧
    (∀ (layout : Layout) (m : Moment), layout.NamesTime m.time →
      (0 ≤ m.date.year ∧ m.date.year ≤ 9999) ∨ layout.EndsYears →
        policy.ReadsTime layout.text (layout.written m) m.time) ∧
    ∀ t : TimeOfDay, policy.ReadsTime "HH:mm:ss" t.toText t := by
  refine ⟨fun layout m ↦ policy.readsDate_written, fun d ↦ ?_,
    fun layout m ↦ policy.readsTime_written, fun t ↦ ?_⟩
  · have hnames : Layout.isoDate.NamesDate :=
      ⟨⟨4, by decide⟩, ⟨2, by decide⟩, ⟨2, by decide⟩⟩
    let midnight : TimeOfDay := ⟨0, 0, 0, by decide, by decide, by decide⟩
    have h := policy.readsDate_written (m := ⟨d, midnight⟩) hnames (.inr (by decide))
    rwa [Layout.written_isoDate] at h
  · -- the layout of times names no year, so any date will do
    have hnames : Layout.isoTime.NamesTime t :=
      ⟨.inl ⟨2, by decide⟩, ⟨2, by decide⟩, .inl ⟨2, by decide⟩⟩
    have h := policy.readsTime_written (m := ⟨default, t⟩) hnames (.inr (by decide))
    rwa [Layout.written_isoTime] at h

/-- A date far ahead, in words; its year ends the text. -/
theorem reads_written_in_words :
    let policy : RequestPolicy := {}
    let layout : Layout := ⟨[.run 'E' 4, .quoted [',', ' ', 't', 'h', 'e', ' '], .run 'd' 1,
      .plain ' ', .quoted ['o', 'f'], .plain ' ', .run 'M' 4, .plain ' ', .run 'y' 1],
      by decide, by decide⟩
    let m : Moment := ⟨(Date.ofParts? 12024 5 31).get (by decide),
      (TimeOfDay.ofParts? 14 30 0).get (by decide)⟩
    let fields := [(Parameter.dateFormat, Json.text layout.text),
      (Parameter.startDate, Json.text (layout.written m))]
    layout.text = "EEEE', the 'd 'of' MMMM y" ∧
      layout.written m = "Friday, the 31 of May +12024" ∧
      (layout.NamesDate ∧ layout.EndsYears ∧
        ∃ times, Pattern.ofText (Request.patternText fields Parameter.timeFormat
          policy.defaultTimePattern) = .ok times) ∧
      ∃ r, Request.ofFields policy fields = .ok r ∧
        r.date Parameter.startDate = .value m.date (.text (layout.written m)) := by
  intro policy layout m fields
  have hnames : layout.NamesDate := ⟨⟨1, by decide⟩, ⟨4, by decide⟩, ⟨1, by decide⟩⟩
  have hends : layout.EndsYears := by decide
  have htimes : ∃ times, Pattern.ofText (Request.patternText fields Parameter.timeFormat
      policy.defaultTimePattern) = .ok times :=
    Except.exists_eq_ok_of_isOk (by decide +kernel)
  refine ⟨by decide +kernel, by decide +kernel, ⟨hnames, hends, htimes⟩, ?_⟩
  exact (reads_written policy).1 layout m hnames (.inr hends) fields Parameter.startDate rfl rfl
    htimes

end RequestPolicy

end MeetingCalendar
