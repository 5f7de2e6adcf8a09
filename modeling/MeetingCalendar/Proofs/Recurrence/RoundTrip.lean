import MeetingCalendar.Event.Encoding
import MeetingCalendar.Proofs.Recurrence.Wording
import MeetingCalendar.Proofs.Rule.Writing

/-!
# Recurrences and the texts of their rules

A recurrence has a rule, and apart from it a written form.  They stay in step: the written form
reads as that rule, and reading it gives the recurrence back.
-/

namespace MeetingCalendar

theorem Rule.Unit.keyword_ofFrequency (f : Frequency) : (ofFrequency f).keyword = f.keyword := by
  cases f <;> rfl

/-! ## Patterns -/

namespace Repeat

variable {p : Repeat}

theorem toDays_weekly_ne_nil {days : WeekdaySet} (h : (weekly days).hasDays = true) :
    (weekly days).toDays ≠ [] := by
  simpa [hasDays, WeekdaySet.isEmpty, toDays] using h

/-- The weekdays in the written form are those of the rule. -/
theorem daysText?_map_toList (h : p.hasDays = true) :
    p.daysText?.map String.toList =
      if p.toDays.isEmpty then none
      else some ([','].intercalate (p.toDays.map Rule.Day.toChars)) := by
  cases p with
  | daily => rfl
  | yearly => rfl
  | weekly days =>
    rw [if_neg (by simpa using toDays_weekly_ne_nil h), daysText?, Option.map_some,
      String.toList_intercalate, toDays, List.map_map, List.map_map]
    rfl
  | monthly day =>
    cases day with
    | sameDay => rfl
    | nth ordinal weekday =>
      have hday : (toString ordinal.number ++ weekday.code).toList =
          Rule.Day.toChars ⟨some ordinal.number, weekday⟩ := by
        rw [String.toList_append, Nat.toString_eq_repr, Nat.toList_repr, Rule.Day.toChars_some,
          Text.integerChars_natCast]
      rw [daysText?, Option.map_some, hday]
      simp [toDays]
    | last weekday =>
      have hday : ("-1" ++ weekday.code).toList = Rule.Day.toChars ⟨some (-1), weekday⟩ := by
        rw [String.toList_append, Rule.Day.toChars_some, Text.integerChars, if_pos (by decide),
          Nat.toDigits_of_lt_base (by decide)]
        rfl
      rw [daysText?, Option.map_some, hday]
      simp [toDays]

/-- The places of weekdays are those of ordinals, or the last. -/
theorem place_of_mem_toDays {day : Rule.Day} (h : day ∈ p.toDays) {place : Int}
    (hplace : day.place = some place) : place = -1 ∨ 1 ≤ place ∧ place ≤ 5 := by
  cases p with
  | daily => cases h
  | yearly => cases h
  | weekly days =>
    obtain ⟨w, -, rfl⟩ := List.mem_map.mp h
    cases hplace
  | monthly day =>
    cases day with
    | sameDay => cases h
    | nth ordinal weekday =>
      cases List.mem_singleton.mp h
      cases hplace
      cases ordinal <;> decide
    | last weekday =>
      cases List.mem_singleton.mp h
      cases hplace
      exact .inl rfl

/-- The weekday entries of a pattern denote it. -/
theorem denotes_toDays (h : p.hasDays = true) :
    Rule.Denotes (.ofFrequency p.frequency) p.toDays p := by
  cases p with
  | daily => exact .daily
  | yearly => exact .yearly
  | weekly days => exact .weekly (toDays_weekly_ne_nil h) (by simp [toDays]) (by simp [toDays])
  | monthly day =>
    cases day with
    | sameDay => exact .sameDay
    | nth ordinal weekday => exact .nth ordinal weekday
    | last weekday => exact .last weekday

end Repeat

/-! ## Recurrences -/

namespace Recurrence

variable (r : Recurrence)

theorem rule_eq_ok : r.rule = .ok r.toRule :=
  if_pos r.interval_le

theorem ofRule_toRule : ofRule r.toRule = .ok r :=
  (ofRule_eq_ok_iff rfl).mpr ⟨rfl, Repeat.denotes_toDays r.hasDays⟩

theorem writable_toRule : r.toRule.Writable where
  interval_le := r.interval_le
  place day hday place hplace := by
    have hrange := Repeat.place_of_mem_toDays hday hplace
    rw [Text.minInt16, Text.maxInt16]
    omega
  others := rfl

theorem unitPart_toList : ("FREQ=" ++ r.frequency.keyword).toList =
    Rule.Part.frequency.toChars r.toRule.unit.keyword.toList := by
  rw [String.toList_append, toRule, Rule.Unit.keyword_ofFrequency]
  rfl

theorem intervalPart_toList : ("INTERVAL=" ++ toString r.interval).toList =
    Rule.Part.interval.toChars (Nat.toDigits 10 r.toRule.interval) := by
  rw [String.toList_append, Nat.toString_eq_repr, Nat.toList_repr]
  rfl

theorem daysPart_toList :
    (r.pattern.daysText?.toList.map ("BYDAY=" ++ ·)).map String.toList =
      if r.toRule.days.isEmpty then []
      else [Rule.Part.days.toChars ([','].intercalate (r.toRule.days.map Rule.Day.toChars))] := by
  calc
    (r.pattern.daysText?.toList.map ("BYDAY=" ++ ·)).map String.toList =
        (r.pattern.daysText?.map String.toList).toList.map Rule.Part.days.toChars := by
      cases r.pattern.daysText? with
      | none => rfl
      | some text => exact congrArg List.singleton String.toList_append
    _ = (if r.toRule.days.isEmpty then none
          else some ([','].intercalate (r.toRule.days.map Rule.Day.toChars))).toList.map
          Rule.Part.days.toChars := by
      rw [Repeat.daysText?_map_toList r.hasDays]
      rfl
    _ = _ := by split <;> rfl

/-- The parts of the written form are those of the rule's text. -/
theorem textParts_map_toList : r.textParts.map String.toList = r.toRule.partsToChars := by
  have hinterval :
      (if r.interval = 1 then []
        else ["INTERVAL=" ++ toString r.interval]).map String.toList =
        if r.toRule.interval = 1 then []
        else [Rule.Part.interval.toChars (Nat.toDigits 10 r.toRule.interval)] := by
    rw [apply_ite (List.map String.toList), List.map_nil, List.map_singleton, intervalPart_toList]
    rfl
  rw [textParts, List.map_append, List.map_append, List.map_singleton, unitPart_toList, hinterval,
    daysPart_toList]
  rfl

/-- The written form is the text of the rule. -/
theorem toText_eq : r.toText = r.toRule.toText := by
  calc
    r.toText = String.ofList r.toText.toList := String.ofList_toList.symm
    _ = String.ofList ([';'].intercalate (r.textParts.map String.toList)) := by
      rw [toText, String.toList_intercalate]
      rfl
    _ = r.toRule.toText := by rw [textParts_map_toList, Rule.toText]

theorem rule_parse_toText : Rule.parse r.toText.toList = .ok r.toRule := by
  rw [toText_eq]
  exact Rule.parse_toText r.writable_toRule

/-- The written form spells the rule. -/
def spelling : r.writable_toRule.wording.Spelling where
  parts := r.writable_toRule.wording.parts
  isPrefixed := false
  letters := r.toText.toList
  before := []
  after := []
  perm := .refl _
  map_toUpper := by
    rw [toText_eq, r.writable_toRule.toList_toText_eq]
    exact (List.map_congr_left fun c hc ↦ Rule.toUpper_of_isTextChar
      (Rule.isTextChar_partsToText (.refl _) c hc)).trans (List.map_id _)
  isBlankChar_before := nofun
  isBlankChar_after := nofun

theorem text_spelling : r.spelling.text = r.toText := by
  rw [Rule.Wording.Spelling.text, spelling, List.nil_append, List.append_nil, String.ofList_toList]

theorem parse_toText : parse r.toText = .ok r := by
  rw [← text_spelling, r.spelling.parse_text, r.writable_toRule.rule_wording, ofRule_toRule]

/-- The rule of a recurrence and its written form say the same: the form reads as the rule, and as
the recurrence, as text and as a value of JSON. -/
theorem exists_rule_parse_toText :
    ∃ rule, r.rule = .ok rule ∧ Rule.parse r.toText.toList = .ok rule ∧
      parse r.toText = .ok r ∧ ofJson (encode r) = .ok r := by
  refine ⟨r.toRule, r.rule_eq_ok, r.rule_parse_toText, r.parse_toText, ?_⟩
  exact Except.mapError_eq_ok_iff.mpr r.parse_toText

end Recurrence

end MeetingCalendar
