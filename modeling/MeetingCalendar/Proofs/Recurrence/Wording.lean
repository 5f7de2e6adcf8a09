import MeetingCalendar.Proofs.Coded
import MeetingCalendar.Proofs.Recurrence.Patch
import MeetingCalendar.Proofs.Rule.Wording
import MeetingCalendar.Recurrence.Rule

/-!
# Recurrences in any wording

A text may spell a wording with its parts in any order, in small or capital letters, with or
without `RRULE:` in front and with blanks around.  Whether it is read as a recurrence, and as which
one, depends on the unit, the interval and the weekdays alone, `Recurrence.parse_spelling`: the
interval is not zero, and the weekdays denote a pattern of the unit.
-/

namespace MeetingCalendar

namespace Rule

/-- The weekday entries that fit a unit: none for days and years, some without places for weeks, and
for months none, or one that is the last or the first to the fifth. -/
def Fits (unit : Unit) (days : List Day) : Prop :=
  match unit with
  | .daily | .yearly => days = []
  | .weekly => days ≠ [] ∧ ∀ day ∈ days, day.place = none
  | .monthly => days = [] ∨
    ∃ place weekday, days = [⟨some place, weekday⟩] ∧ (place = -1 ∨ 1 ≤ place ∧ place ≤ 5)
  | .hourly | .minutely | .secondly => False

/-- The pattern that the weekday entries of a unit denote. -/
inductive Denotes : Unit → List Day → Repeat → Prop
  | daily : Denotes .daily [] .daily
  | yearly : Denotes .yearly [] .yearly
  | weekly {days : List Day} {set : WeekdaySet} (hne : days ≠ [])
      (hbare : ∀ day ∈ days, day.place = none)
      (hset : ∀ w, w ∈ set ↔ ∃ day ∈ days, day.weekday = w) : Denotes .weekly days (.weekly set)
  | sameDay : Denotes .monthly [] (.monthly .sameDay)
  | last (w : Weekday) : Denotes .monthly [⟨some (-1), w⟩] (.monthly (.last w))
  | nth (ordinal : Ordinal) (w : Weekday) :
      Denotes .monthly [⟨some ordinal.number, w⟩] (.monthly (.nth ordinal w))

/-- A text that says a wording: its parts, in one of their orders, in small or capital letters,
perhaps behind `RRULE:`, with blanks around. -/
structure Wording.Spelling (w : Wording) where
  parts : List (Part × List Char)
  isPrefixed : Bool
  letters : List Char
  before : List Char
  after : List Char
  perm : parts.Perm w.parts
  map_toUpper : letters.map Char.toUpper =
    (if isPrefixed then "RRULE:".toList else []) ++ partsToText parts
  isBlankChar_before : ∀ c ∈ before, Text.isBlankChar c = true
  isBlankChar_after : ∀ c ∈ after, Text.isBlankChar c = true

def Wording.Spelling.text {w : Wording} (s : w.Spelling) : String :=
  String.ofList (s.before ++ s.letters ++ s.after)

/-! ## Characters -/

theorem toNat_of_isTextChar {c : Char} (h : isTextChar c = true) :
    44 ≤ c.toNat ∧ c.toNat ≤ 90 := by
  simp only [isTextChar, isWordChar, Bool.or_eq_true, beq_iff_eq] at h
  rcases h with ((((h | h) | rfl) | rfl) | rfl) | rfl
  · exact ⟨Nat.le_trans (by decide) (Text.isUpper_iff.mp h).1, (Text.isUpper_iff.mp h).2⟩
  · exact ⟨Nat.le_trans (by decide) (Text.toNat_of_isDigit h).1,
      Nat.le_trans (Text.toNat_of_isDigit h).2 (by decide)⟩
  all_goals decide

theorem toUpper_of_not_small {c : Char} (h : ¬(97 ≤ c.toNat ∧ c.toNat ≤ 122)) : c.toUpper = c :=
  dif_neg h

theorem toUpper_of_isTextChar {c : Char} (h : isTextChar c = true) : c.toUpper = c := by
  have hle : c.toNat ≤ 90 := (toNat_of_isTextChar h).2
  exact toUpper_of_not_small (by omega)

theorem isBlankChar_of_isTextChar {c : Char} (h : isTextChar c = true) :
    Text.isBlankChar c = false := by
  have hbounds := toNat_of_isTextChar h
  simp only [Text.isBlankChar, Bool.or_eq_false_iff, Bool.and_eq_false_iff, decide_eq_false_iff_not,
    beq_eq_false_iff_ne]
  omega

/-- Blanks are no letters. -/
theorem toUpper_of_isBlankChar {c : Char} (h : Text.isBlankChar c = true) : c.toUpper = c := by
  apply toUpper_of_not_small
  simp only [Text.isBlankChar, Bool.or_eq_true, Bool.and_eq_true, decide_eq_true_eq,
    beq_iff_eq] at h
  omega

/-! ## What a spelling reads as -/

namespace Wording.Spelling

variable {w : Wording} (s : w.Spelling)

theorem isBlankChar_letters : ∀ c ∈ s.letters, Text.isBlankChar c = false := by
  intro c hc
  have hfront : "RRULE:".toList.any Text.isBlankChar = false := by decide
  have hupper : c.toUpper ∈ s.letters.map Char.toUpper := List.mem_map_of_mem hc
  have hvisible : Text.isBlankChar c.toUpper = false := by
    rw [s.map_toUpper, List.mem_append] at hupper
    rcases hupper with hupper | hupper
    · split at hupper
      · exact eq_false_of_ne_true (List.any_eq_false.mp hfront _ hupper)
      · cases hupper
    · exact isBlankChar_of_isTextChar (isTextChar_partsToText s.perm _ hupper)
  -- A blank character is its own capital, which is not blank.
  rw [← Bool.not_eq_true]
  intro hblank
  rw [toUpper_of_isBlankChar hblank, hblank] at hvisible
  cases hvisible

/-- No text of parts has `RRULE:` in front. -/
theorem isPrefixOf?_partsToText :
    "RRULE:".toList.isPrefixOf? (partsToText s.parts) = none := by
  rw [Option.eq_none_iff_forall_ne_some]
  intro rest hrest
  have hcolon : ':' ∈ partsToText s.parts := by
    rw [← List.isPrefixOf?_eq_some_iff_append_eq.mp hrest]
    exact List.mem_append_left rest (by decide)
  exact not_mem_partsToText s.perm (by decide) hcolon

/-- The rule in a spelling is the text of its parts. -/
theorem ruleChars_text : Recurrence.ruleChars s.text = partsToText s.parts := by
  have htrim : Text.trimChars s.text.toList = s.letters := by
    rw [text, String.toList_ofList,
      Text.trimChars_append_blanks s.isBlankChar_before s.isBlankChar_after,
      Text.trimChars_of_isBlankChar s.isBlankChar_letters]
  rw [Recurrence.ruleChars, htrim, s.map_toUpper]
  cases s.isPrefixed with
  | false =>
    rw [if_neg Bool.false_ne_true, List.nil_append, s.isPrefixOf?_partsToText]
    rfl
  | true =>
    rw [if_pos rfl, List.isPrefixOf?_eq_some_iff_append_eq.mpr rfl]
    rfl

/-- A spelling reads as the recurrence of the rule that it says. -/
theorem parse_text : Recurrence.parse s.text = Recurrence.ofRule w.rule := by
  have hne : (partsToText s.parts).isEmpty = false := by
    obtain ⟨part, value, rest, hrest⟩ := exists_partsToText_eq s.perm
    rw [hrest]
    cases part <;> rfl
  rw [Recurrence.parse, s.ruleChars_text, hne, if_neg Bool.false_ne_true, parse_partsToText s.perm]
  rfl

end Wording.Spelling

/-! ## What a rule denotes -/

theorem Denotes.hasDays {unit : Unit} {days : List Day} {p : Repeat} (h : Denotes unit days p) :
    p.hasDays = true := by
  cases h with
  | weekly hne hbare hset =>
    obtain ⟨day, hday⟩ := List.exists_mem_of_ne_nil _ hne
    have hmem := (hset day.weekday).mpr ⟨day, hday, rfl⟩
    rw [Repeat.hasDays, WeekdaySet.isEmpty_eq_false_of_mem hmem]
    rfl
  | _ => rfl

/-- Entries denote a pattern if and only if they fit the unit. -/
theorem exists_denotes_iff {unit : Unit} {days : List Day} :
    (∃ p, Denotes unit days p) ↔ Fits unit days := by
  constructor
  · rintro ⟨p, h⟩
    cases h with
    | daily => rfl
    | yearly => rfl
    | weekly hne hbare hset => exact ⟨hne, hbare⟩
    | sameDay => exact .inl rfl
    | last w => exact .inr ⟨-1, w, rfl, .inl rfl⟩
    | nth ordinal w =>
      have hbounds := ordinal.number_bounds
      exact .inr ⟨ordinal.number, w, rfl, .inr (by omega)⟩
  · intro h
    cases unit with
    | daily =>
      obtain rfl : days = [] := h
      exact ⟨_, .daily⟩
    | yearly =>
      obtain rfl : days = [] := h
      exact ⟨_, .yearly⟩
    | weekly =>
      have hset : ∀ w, w ∈ WeekdaySet.ofList (days.map Day.weekday) ↔
          ∃ day ∈ days, day.weekday = w := by
        intro w
        rw [WeekdaySet.mem_ofList, List.mem_map]
      exact ⟨_, .weekly h.1 h.2 hset⟩
    | monthly =>
      rcases h with rfl | ⟨place, w, rfl, rfl | hplace⟩
      · exact ⟨_, .sameDay⟩
      · exact ⟨_, .last w⟩
      · obtain ⟨ordinal, rfl⟩ : ∃ ordinal : Ordinal, place = ordinal.number := by
          obtain rfl | rfl | rfl | rfl | rfl :
            place = 1 ∨ place = 2 ∨ place = 3 ∨ place = 4 ∨ place = 5 := by omega
          exacts [⟨.first, rfl⟩, ⟨.second, rfl⟩, ⟨.third, rfl⟩, ⟨.fourth, rfl⟩, ⟨.fifth, rfl⟩]
        exact ⟨_, .nth ordinal w⟩
    | hourly => exact h.elim
    | minutely => exact h.elim
    | secondly => exact h.elim

end Rule

namespace Repeat

variable {days : List Rule.Day} {p : Repeat}

theorem weeklyOfDays_eq_ok_iff :
    weeklyOfDays days = .ok p ↔ Rule.Denotes .weekly days p := by
  have hplaces : days.any (fun day ↦ day.place.isSome) = false ↔
      ∀ day ∈ days, day.place = none := by
    simp
  constructor
  · intro h
    unfold weeklyOfDays at h
    split at h
    · cases h
    · rename_i hne
      split at h
      · cases h
      · rename_i hbare
        cases h
        refine .weekly (by simpa using hne) (hplaces.mp (eq_false_of_ne_true hbare)) fun w ↦ ?_
        rw [WeekdaySet.mem_ofList, List.mem_map]
  · intro h
    cases h with
    | weekly hne hbare hset =>
      rw [weeklyOfDays, if_neg (by simpa using hne), hplaces.mpr hbare, if_neg Bool.false_ne_true,
        Except.ok.injEq, weekly.injEq]
      refine WeekdaySet.ext fun w ↦ ?_
      rw [WeekdaySet.mem_ofList, List.mem_map, hset]

theorem monthlyOfDays_eq_ok_iff :
    (MonthlyDay.ofDays days).map .monthly = .ok p ↔ Rule.Denotes .monthly days p := by
  rw [Except.map_eq_ok_iff]
  constructor
  · rintro ⟨day, hday, rfl⟩
    unfold MonthlyDay.ofDays at hday
    split at hday
    · cases hday
      exact .sameDay
    · rename_i place w
      by_cases hlast : place = -1
      · rw [if_pos hlast] at hday
        cases hday
        rw [hlast]
        exact .last w
      · rw [if_neg hlast] at hday
        split at hday
        · rename_i ordinal hordinal
          cases hday
          rw [Ordinal.ofCode?_eq_some_iff.mp hordinal]
          exact .nth ordinal w
        · cases hday
    · cases hday
  · intro h
    cases h with
    | sameDay => exact ⟨_, rfl, rfl⟩
    | last w => exact ⟨_, rfl, rfl⟩
    | nth ordinal w => exact ⟨_, by cases ordinal <;> rfl, rfl⟩

/-- The pattern made of weekday entries is the one that they denote. -/
theorem ofDays_eq_ok_iff {frequency : Frequency} :
    ofDays frequency days = .ok p ↔ Rule.Denotes (.ofFrequency frequency) days p := by
  cases frequency with
  | daily =>
    cases days with
    | nil =>
      constructor
      · rintro ⟨⟩
        exact .daily
      · rintro ⟨⟩
        rfl
    | cons day days => exact ⟨nofun, nofun⟩
  | weekly => exact weeklyOfDays_eq_ok_iff
  | monthly => exact monthlyOfDays_eq_ok_iff
  | yearly =>
    cases days with
    | nil =>
      constructor
      · rintro ⟨⟩
        exact .yearly
      · rintro ⟨⟩
        rfl
    | cons day days => exact ⟨nofun, nofun⟩

end Repeat

/-! ## Recurrences -/

namespace Rule

theorem Unit.frequency?_eq_some_iff {unit : Unit} {frequency : Frequency} :
    unit.frequency? = some frequency ↔ unit = ofFrequency frequency := by
  constructor
  · intro h
    cases unit <;> cases h <;> rfl
  · rintro rfl
    exact frequency?_ofFrequency frequency

theorem Denotes.exists_frequency? {unit : Unit} {days : List Day} {p : Repeat}
    (h : Denotes unit days p) : ∃ frequency, unit.frequency? = some frequency := by
  cases h <;> exact ⟨_, rfl⟩

end Rule

namespace Recurrence

variable {rule : Rule} {r : Recurrence}

/-- The recurrence of a rule without other parts has its interval and what its entries denote. -/
theorem ofRule_eq_ok_iff (hothers : rule.others = []) :
    ofRule rule = .ok r ↔
      r.interval = rule.interval ∧ Rule.Denotes rule.unit rule.days r.pattern := by
  have hmake : ∀ frequency, rule.unit.frequency? = some frequency →
      (ofRule rule = .ok r ↔
        r.interval = rule.interval ∧ Repeat.ofDays frequency rule.days = .ok r.pattern) := by
    intro frequency hfrequency
    simp only [ofRule, hothers, hfrequency, Except.bind_eq_ok_iff, Except.mapError_eq_ok_iff,
      make_eq_ok_iff]
    constructor
    · rintro ⟨p, hp, hinterval, rfl⟩
      exact ⟨hinterval, hp⟩
    · rintro ⟨hinterval, hp⟩
      exact ⟨_, hp, hinterval, rfl⟩
  cases hfrequency : rule.unit.frequency? with
  | some frequency =>
    rw [hmake frequency hfrequency, Repeat.ofDays_eq_ok_iff,
      Rule.Unit.frequency?_eq_some_iff.mp hfrequency]
  | none =>
    constructor
    · intro h
      simp only [ofRule, hothers, hfrequency] at h
      cases h
    · rintro ⟨-, h⟩
      obtain ⟨frequency, hsome⟩ := h.exists_frequency?
      rw [hfrequency] at hsome
      cases hsome

/-- A rule without other parts is that of a recurrence if its interval is in range and its entries
denote a pattern. -/
theorem exists_ofRule_iff (hothers : rule.others = []) (hle : rule.interval ≤ maxInterval) :
    (∃ r, ofRule rule = .ok r) ↔ 0 < rule.interval ∧ Rule.Fits rule.unit rule.days := by
  simp only [ofRule_eq_ok_iff hothers, ← Rule.exists_denotes_iff]
  constructor
  · rintro ⟨r, hinterval, hdenotes⟩
    exact ⟨hinterval ▸ r.interval_pos, r.pattern, hdenotes⟩
  · rintro ⟨hpos, p, hdenotes⟩
    exact ⟨⟨rule.interval, p, hpos, hle, hdenotes.hasDays⟩, rfl, hdenotes⟩

end Recurrence

namespace Rule.Wording

variable (w : Wording)

theorem interval_rule_le : w.rule.interval ≤ Recurrence.maxInterval := by
  cases hinterval : w.interval with
  | none =>
    rw [rule, hinterval]
    exact (by decide : 1 ≤ Recurrence.maxInterval)
  | some n =>
    rw [rule, hinterval]
    exact w.interval_le n hinterval

theorem interval_rule_pos_iff : 0 < w.rule.interval ↔ w.interval ≠ some 0 := by
  rw [rule]
  cases w.interval with
  | none => simp
  | some n => simp [Nat.pos_iff_ne_zero]

end Rule.Wording

/-- A spelling is accepted if and only if the interval, if it says one, is not zero and the weekdays
fit the unit; it is then read as the recurrence with that interval and with the pattern that they
denote.  Nothing but these three matters: not the start of the week, nor how they are spelled. -/
theorem Recurrence.parse_spelling (w : Rule.Wording) (s : w.Spelling) :
    ((∃ r, parse s.text = .ok r) ↔ w.interval ≠ some 0 ∧ Rule.Fits w.unit w.days) ∧
      (∀ r, parse s.text = .ok r ↔
        r.interval = w.interval.getD 1 ∧ Rule.Denotes w.unit w.days r.pattern) ∧
      ∀ (w' : Rule.Wording) (s' : w'.Spelling), w'.unit = w.unit → w'.interval = w.interval →
        w'.days = w.days → parse s'.text = parse s.text := by
  refine ⟨?_, fun r ↦ ?_, fun w' s' hunit hinterval hdays ↦ ?_⟩
  · rw [s.parse_text, exists_ofRule_iff rfl w.interval_rule_le, w.interval_rule_pos_iff]
    rfl
  · rw [s.parse_text, ofRule_eq_ok_iff rfl]
    rfl
  · have hrule : w'.rule = w.rule := by
      rw [Rule.Wording.rule, Rule.Wording.rule, hunit, hinterval, hdays]
    rw [s'.parse_text, s.parse_text, hrule]

/-- Every other month on the last Friday, backwards and in small letters, and as it is written. -/
theorem Recurrence.parse_spelling_last_friday :
    ∃ (w w' : Rule.Wording) (s : w.Spelling) (s' : w'.Spelling),
      s.text = "\trrule:wkst=su;byday=-1fr;interval=2;freq=monthly\n" ∧
      s'.text = "FREQ=MONTHLY;INTERVAL=2;BYDAY=-1FR" ∧
      parse s.text = .ok ⟨2, .monthly (.last .friday), by decide, by decide, rfl⟩ ∧
      parse s'.text = parse s.text := by
  let w : Rule.Wording :=
    { unit := .monthly
      interval := some 2
      days := [⟨some (-1), .friday⟩]
      weekStart := some .sunday
      interval_le := by simp [Text.maxNat16]
      writable := by simp [Rule.Day.Writable, Text.minInt16, Text.maxInt16] }
  let w' : Rule.Wording := { w with weekStart := none }
  let s : w.Spelling :=
    { parts := w.parts.reverse
      isPrefixed := true
      letters := "rrule:wkst=su;byday=-1fr;interval=2;freq=monthly".toList
      before := ['\t']
      after := ['\n']
      perm := List.reverse_perm w.parts
      map_toUpper := by decide +kernel
      isBlankChar_before := List.forall_mem_singleton.mpr rfl
      isBlankChar_after := List.forall_mem_singleton.mpr rfl }
  let s' : w'.Spelling :=
    { parts := w'.parts
      isPrefixed := false
      letters := "FREQ=MONTHLY;INTERVAL=2;BYDAY=-1FR".toList
      before := []
      after := []
      perm := .refl _
      map_toUpper := by decide +kernel
      isBlankChar_before := nofun
      isBlankChar_after := nofun }
  obtain ⟨-, hreads, hsame⟩ := parse_spelling w s
  exact ⟨w, w', s, s', rfl, rfl, (hreads _).mpr ⟨rfl, .last .friday⟩, hsame w' s' rfl rfl rfl⟩

end MeetingCalendar
