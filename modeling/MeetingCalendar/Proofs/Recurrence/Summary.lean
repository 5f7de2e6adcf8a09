import MeetingCalendar.Proofs.Recurrence.Anchoring
import MeetingCalendar.Proofs.Text
import MeetingCalendar.Recurrence.Summary

/-!
# Summaries tell recurrences apart

A summary says first how often an event repeats and then on which days.  Where the first part ends
can be seen from it alone, so the frequency, the interval and the second part can be read off a
summary.  For a given frequency the second part names the days: weekdays are listed with commas, and
a day of the month is a word for its place and a noun.
-/

namespace MeetingCalendar

/-! ## How often -/

namespace Frequency

variable {f g : Frequency} {m n : Nat} {rest rest' : List Char}

theorem toList_phrase_append (f : Frequency) (h : n ≠ 1) (rest : List Char) :
    (f.phrase n).toList ++ rest =
      "Every ".toList ++ (Nat.toDigits 10 n ++ ' ' :: (f.unitName.toList ++ 's' :: rest)) := by
  simp [phrase, h]

theorem phrase_one_append_inj (h : (f.phrase 1).toList ++ rest = (g.phrase 1).toList ++ rest') :
    f = g ∧ rest = rest' := by
  refine Text.append_inj_of_head? (fun f ↦ (f.phrase 1).toList) (fun f ↦ ?_) (fun f g ↦ ?_) h
  · cases f <;> simp [phrase]
  · cases f <;> cases g <;> simp [phrase]

theorem unitName_append_inj (h : f.unitName.toList ++ rest = g.unitName.toList ++ rest') :
    f = g ∧ rest = rest' := by
  refine Text.append_inj_of_head? (fun f ↦ f.unitName.toList) (fun f ↦ ?_) (fun f g ↦ ?_) h
  · cases f <;> simp [unitName]
  · cases f <;> cases g <;> simp [unitName]

/-- No word for an interval of one starts like the others. -/
theorem phrase_one_append_ne (hn : n ≠ 1) :
    (f.phrase 1).toList ++ rest ≠ (g.phrase n).toList ++ rest' := by
  rw [toList_phrase_append g hn]
  cases f <;> simp [phrase]

/-- Frequency and interval can be read off a text that starts with them. -/
theorem phrase_append_inj (h : (f.phrase m).toList ++ rest = (g.phrase n).toList ++ rest') :
    (f = g ∧ m = n) ∧ rest = rest' := by
  by_cases hm : m = 1
  · subst hm
    by_cases hn : n = 1
    · subst hn
      obtain ⟨hfrequency, hrest⟩ := phrase_one_append_inj h
      exact ⟨⟨hfrequency, rfl⟩, hrest⟩
    · exact absurd h (phrase_one_append_ne hn)
  · by_cases hn : n = 1
    · subst hn
      exact absurd h.symm (phrase_one_append_ne hm)
    · have hblank : ∀ k, ' ' ∉ Nat.toDigits 10 k := fun k hmem ↦
        absurd (Text.isDigit_of_mem_toDigits k ' ' hmem) (by decide)
      rw [toList_phrase_append f hm, toList_phrase_append g hn] at h
      obtain ⟨hdigits, hunits⟩ :=
        Text.append_separator_inj (hblank m) (hblank n) (List.append_cancel_left h)
      have hinterval : m = n := by
        rw [← Nat.ofDigitChars_ten_toDigits (n := m), hdigits, Nat.ofDigitChars_ten_toDigits]
      obtain ⟨hfrequency, hrest⟩ := unitName_append_inj hunits
      exact ⟨⟨hfrequency, hinterval⟩, (List.cons.inj hrest).2⟩

end Frequency

/-! ## On which days -/

theorem Weekday.name_injective {v w : Weekday} (h : v.name = w.name) : v = w := by
  revert h
  cases v <;> cases w <;> decide

theorem Weekday.comma_not_mem_name (w : Weekday) : ',' ∉ w.name.toList := by
  cases w <;> simp [name]

theorem Ordinal.name_injective {o p : Ordinal} (h : o.name = p.name) : o = p := by
  revert h
  cases o <;> cases p <;> decide

namespace MonthlyDay

/-- The word for the place of the day in its month. -/
def placeName : MonthlyDay → String
  | sameDay => "same"
  | nth ordinal _ => ordinal.name
  | last _ => "last"

/-- The noun that the place goes with. -/
def dayName : MonthlyDay → String
  | sameDay => "day"
  | nth _ weekday => weekday.name
  | last weekday => weekday.name

theorem blank_not_mem_placeName (choice : MonthlyDay) : ' ' ∉ choice.placeName.toList := by
  cases choice with
  | sameDay => simp [placeName]
  | nth ordinal weekday => cases ordinal <;> simp [placeName, Ordinal.name]
  | last weekday => simp [placeName]

/-- Place and noun together name one day of the month. -/
theorem eq_of_names {choice other : MonthlyDay} (hplace : choice.placeName = other.placeName)
    (hday : choice.dayName = other.dayName) : choice = other := by
  have hsame (ordinal : Ordinal) : ordinal.name ≠ "same" ∧ ordinal.name ≠ "last" := by
    cases ordinal <;> decide
  cases choice with
  | sameDay =>
    cases other with
    | sameDay => rfl
    | nth ordinal weekday => exact absurd hplace.symm (hsame ordinal).1
    | last weekday => exact absurd hplace (show "same" ≠ "last" by decide)
  | nth ordinal weekday =>
    cases other with
    | sameDay => exact absurd hplace (hsame ordinal).1
    | nth ordinal' weekday' =>
      rw [Ordinal.name_injective hplace, Weekday.name_injective hday]
    | last weekday' => exact absurd hplace (hsame ordinal).2
  | last weekday =>
    cases other with
    | sameDay => exact absurd hplace (show "last" ≠ "same" by decide)
    | nth ordinal weekday' => exact absurd hplace.symm (hsame ordinal).2
    | last weekday' => rw [Weekday.name_injective hday]

theorem toList_phrase (choice : MonthlyDay) :
    (Repeat.monthly choice).phrase.toList =
      " on the ".toList ++ (choice.placeName.toList ++ ' ' :: choice.dayName.toList) := by
  cases choice <;> simp [Repeat.phrase, placeName, dayName]

end MonthlyDay

namespace Repeat

theorem toList_phrase_weekly (days : WeekdaySet) :
    (weekly days).phrase.toList =
      " on ".toList ++ [',', ' '].intercalate (days.toList.map fun w ↦ w.name.toList) := by
  simp [phrase, String.toList_intercalate, Function.comp_def]

/-- The list of weekdays tells sets of them apart. -/
theorem weekly_phrase_inj {days other : WeekdaySet} (hdays : days.isEmpty = false)
    (hother : other.isEmpty = false) (h : (weekly days).phrase = (weekly other).phrase) :
    days = other := by
  have hcommas (days : WeekdaySet) :
      ∀ piece ∈ days.toList.map (fun w ↦ w.name.toList), ',' ∉ piece := by
    intro piece hpiece
    obtain ⟨w, -, rfl⟩ := List.mem_map.mp hpiece
    exact w.comma_not_mem_name
  have hne {days : WeekdaySet} (hdays : days.isEmpty = false) :
      days.toList.map (fun w ↦ w.name.toList) ≠ [] := by
    intro hnil
    rw [WeekdaySet.isEmpty, List.map_eq_nil_iff.mp hnil] at hdays
    cases hdays
  have hnames : days.toList.map (fun w ↦ w.name.toList) =
      other.toList.map fun w ↦ w.name.toList := by
    have hlist := congrArg String.toList h
    rw [toList_phrase_weekly, toList_phrase_weekly] at hlist
    exact Text.intercalate_inj (hcommas days) (hcommas other) (hne hdays) (hne hother)
      (List.append_cancel_left hlist)
  have hlists : days.toList = other.toList := by
    apply List.map_injective_iff.mpr _ hnames
    intro v w hname
    exact Weekday.name_injective (String.toList_injective hname)
  rw [← WeekdaySet.ofList_toList days, hlists, WeekdaySet.ofList_toList]

/-- The words for a day of the month tell such days apart. -/
theorem monthly_phrase_inj {choice other : MonthlyDay}
    (h : (monthly choice).phrase = (monthly other).phrase) : choice = other := by
  have hlist := congrArg String.toList h
  rw [choice.toList_phrase, other.toList_phrase] at hlist
  obtain ⟨hplace, hday⟩ := Text.append_separator_inj choice.blank_not_mem_placeName
    other.blank_not_mem_placeName (List.append_cancel_left hlist)
  exact MonthlyDay.eq_of_names (String.toList_injective hplace) (String.toList_injective hday)

/-- For one frequency, the words for the days tell patterns apart. -/
theorem phrase_inj {p q : Repeat} (hp : p.hasDays = true) (hq : q.hasDays = true)
    (hfrequency : p.frequency = q.frequency) (h : p.phrase = q.phrase) : p = q := by
  cases p with
  | daily =>
    cases q with
    | daily => rfl
    | _ => cases hfrequency
  | yearly =>
    cases q with
    | yearly => rfl
    | _ => cases hfrequency
  | weekly days =>
    cases q with
    | weekly other =>
      rw [weekly_phrase_inj (by simpa [hasDays] using hp) (by simpa [hasDays] using hq) h]
    | _ => cases hfrequency
  | monthly choice =>
    cases q with
    | monthly other => rw [monthly_phrase_inj h]
    | _ => cases hfrequency

end Repeat

/-- No two recurrences have the same summary. -/
theorem Recurrence.summary_eq_iff (r s : Recurrence) : r.summary = s.summary ↔ r = s := by
  refine ⟨fun h ↦ ?_, congrArg _⟩
  have hlist := congrArg String.toList h
  rw [summary, summary, String.toList_append, String.toList_append] at hlist
  obtain ⟨⟨hfrequency, hinterval⟩, hphrase⟩ := Frequency.phrase_append_inj hlist
  have hpattern : r.pattern = s.pattern :=
    Repeat.phrase_inj r.hasDays s.hasDays hfrequency (String.toList_injective hphrase)
  exact ext_parts hinterval hpattern

end MeetingCalendar
