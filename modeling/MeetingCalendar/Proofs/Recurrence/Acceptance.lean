import MeetingCalendar.Proofs.Rule.Parts
import MeetingCalendar.Recurrence.Rule

/-!
# What a text may say that is read as a recurrence

A recurrence has a unit of time, an interval and weekdays, and its text may name the start of the
week.  Nothing else should be in a text that is read as one.  But what stands in front of a colon is
taken for a property name and dropped unread, a list without an item counts as no list, and letters
outside of ASCII can stand for those of a key.
-/

namespace MeetingCalendar

namespace Rule

/-- The keys of the parts that are honoured in a recurrence, and that of the week start. -/
def supportedKeys : List String :=
  ["FREQ", "INTERVAL", "BYDAY", "BYWEEKDAY", "WKST"]

/-- The keys of the parts that restrict a rule by a list of numbers. -/
def listKeys : List String :=
  ["BYSETPOS", "BYMONTH", "BYMONTHDAY", "BYYEARDAY", "BYWEEKNO", "BYHOUR", "BYMINUTE", "BYSECOND"]

/-- The pieces between semicolons are empty or start with a supported key. -/
def Supported (cs : List Char) : Prop :=
  ∀ piece ∈ cs.splitOn ';', piece = [] ∨
    ∃ key ∈ supportedKeys, ∃ value, piece = key.toList ++ '=' :: value

/-- The pieces between semicolons are empty, or they have a key that is supported in upper case and
a value, or they have the key of a list in upper case and no value. -/
def Tolerated (cs : List Char) : Prop :=
  ∀ piece ∈ cs.splitOn ';', piece = [] ∨
    ∃ key value, '=' ∉ key ∧ piece = key ++ '=' :: value ∧
      (String.ofList (Text.upper key) ∈ supportedKeys ∧ value ≠ [] ∨
        String.ofList (Text.upper key) ∈ listKeys ∧ value = [])

/-- Every part has its key in upper case and a value. -/
def IsExact (cs : List Char) : Prop :=
  ∀ piece ∈ cs.splitOn ';', ∀ key value, '=' ∉ key → piece = key ++ '=' :: value →
    Text.upper key = key ∧ value ≠ []

instance (cs : List Char) : Decidable (Supported cs) :=
  decidable_of_iff (∀ piece ∈ cs.splitOn ';', piece = [] ∨
      ∃ key ∈ supportedKeys, ((key.toList ++ ['=']).isPrefixOf? piece).isSome = true) <| by
    have hkey : ∀ key piece : List Char, ((key ++ ['=']).isPrefixOf? piece).isSome = true ↔
        ∃ value, piece = key ++ '=' :: value := by
      intro key piece
      rw [Option.isSome_iff_exists]
      simp only [List.isPrefixOf?_eq_some_iff_append_eq, List.append_assoc, List.singleton_append,
        eq_comm]
    simp only [Supported, hkey]

theorem not_mem_of_mem_supportedKeys {key : String} (h : key ∈ supportedKeys) :
    '=' ∉ key.toList := by
  revert key
  decide

theorem upper_of_mem_supportedKeys {key : String} (h : key ∈ supportedKeys) :
    Text.upper key.toList = key.toList := by
  revert key
  decide +kernel

theorem not_mem_listKeys_of_mem_supportedKeys {key : String} (h : key ∈ supportedKeys) :
    key ∉ listKeys := by
  revert key
  decide

/-- What is tolerated is supported as far as it is exact. -/
theorem supported_iff_isExact {cs : List Char} (h : Tolerated cs) : Supported cs ↔ IsExact cs := by
  constructor
  · intro hsupported piece hpiece key value hkey heq
    have hne : piece ≠ [] := heq ▸ List.append_ne_nil_of_right_ne_nil _ (List.cons_ne_nil _ _)
    obtain ⟨name, hname, value', heq'⟩ := (hsupported piece hpiece).resolve_left hne
    obtain ⟨key'', value'', hkey'', heq'', hvalue⟩ := (h piece hpiece).resolve_left hne
    have hsame := Text.append_separator_inj hkey (not_mem_of_mem_supportedKeys hname)
      (heq.symm.trans heq')
    have hsame' := Text.append_separator_inj hkey hkey'' (heq.symm.trans heq'')
    have hupper : Text.upper key = key := hsame.1 ▸ upper_of_mem_supportedKeys hname
    refine ⟨hupper, ?_⟩
    rw [← hsame'.1, hupper, hsame.1, String.ofList_toList, ← hsame'.2] at hvalue
    rcases hvalue with hvalue | hvalue
    · exact hvalue.2
    · exact absurd hvalue.1 (not_mem_listKeys_of_mem_supportedKeys hname)
  · intro hexact piece hpiece
    rcases h piece hpiece with hempty | ⟨key, value, hkey, heq, hvalue⟩
    · exact .inl hempty
    · obtain ⟨hupper, hne⟩ := hexact piece hpiece key value hkey heq
      rw [hupper] at hvalue
      rcases hvalue with hvalue | hvalue
      · exact .inr ⟨_, hvalue.1, value, by rw [String.toList_ofList, heq]⟩
      · exact absurd hvalue.2 hne

/-- The key of a part that is in a rule without other parts. -/
theorem Part.key_mem {key : String} {part : Part} (h : ofKey? key = some part) :
    (part ∈ [frequency, .interval, .days, .weekStart] → key ∈ supportedKeys) ∧
      (part ∈ listParts → key ∈ listKeys) := by
  rcases eq_of_ofKey? h with rfl | ⟨rfl, rfl⟩
  · revert part
    intro part _
    cases part <;> decide
  · decide

/-- A value whose rule has no other parts is tolerated. -/
theorem tolerated_of_readParts {value : List Char} {parts : List (Part × List Char)} {rule : Rule}
    (hparts : readParts value = .ok parts) (hrule : ofParts parts = .ok rule)
    (hothers : rule.others = []) : Tolerated value := by
  intro piece hpiece
  by_cases hempty : piece = []
  · exact .inl hempty
  · right
    obtain ⟨key, part, v, hread, hlookup⟩ := readParts_eq_ok hparts piece hpiece hempty
    obtain ⟨hkey, heq, hpart⟩ := readPart_eq_ok hread
    obtain ⟨hsupported, hlist⟩ := Part.key_mem hpart
    refine ⟨key.toList, v, hkey, heq, ?_⟩
    rcases value_of_ofParts hrule hothers hlookup with hvalue | hvalue
    · exact .inl ⟨hsupported hvalue.1, hvalue.2⟩
    · exact .inr ⟨hlist hvalue.1, hvalue.2⟩

end Rule

namespace Recurrence

theorem others_of_ofRule {rule : Rule} {r : Recurrence} (h : ofRule rule = .ok r) :
    rule.others = [] := by
  unfold ofRule at h
  split at h
  · cases h
  · assumption

theorem exists_rule_of_parse {text : String} {r : Recurrence} (h : parse text = .ok r) :
    ∃ rule, Rule.parse (ruleChars text) = .ok rule ∧ ofRule rule = .ok r := by
  unfold parse at h
  dsimp only at h
  split at h
  · cases h
  · obtain ⟨rule, hrule, hr⟩ := Except.bind_eq_ok_iff.mp h
    exact ⟨rule, Except.mapError_eq_ok_iff.mp hrule, hr⟩

/-- What is read of a text that is a recurrence, which is the text or what stands behind its first
colon, says nothing but the parts of the recurrence, apart from empty lists.  Without a colon the
text consists of supported parts exactly when all keys are in upper case and all parts have a
value. -/
theorem tolerated_of_parse {text : String} {r : Recurrence} (h : parse text = .ok r) :
    (∃ value, Rule.Tolerated value ∧
      (':' ∉ ruleChars text ∧ value = ruleChars text ∨
        ∃ front, ':' ∉ front ∧ ruleChars text = front ++ ':' :: value)) ∧
    (':' ∉ ruleChars text → (Rule.Supported (ruleChars text) ↔ Rule.IsExact (ruleChars text))) := by
  obtain ⟨rule, hrule, hr⟩ := exists_rule_of_parse h
  obtain ⟨value, parts, hparts, hofParts, hvalue⟩ := Rule.parse_eq_ok hrule
  have htolerated := Rule.tolerated_of_readParts hparts hofParts (others_of_ofRule hr)
  refine ⟨⟨value, htolerated, hvalue⟩, fun hcolon ↦ ?_⟩
  rcases hvalue with ⟨-, rfl⟩ | ⟨front, -, hfront⟩
  · exact Rule.supported_iff_isExact htolerated
  · exact absurd (hfront ▸ List.mem_append_right _ List.mem_cons_self) hcolon

/-- A weekly text with a week start. -/
theorem tolerated_of_parse_weekly :
    let text := "FREQ=WEEKLY;WKST=SU;BYDAY=MO"
    ∃ r, parse text = .ok r ∧
      (∃ value, Rule.Tolerated value ∧
        (':' ∉ ruleChars text ∧ value = ruleChars text ∨
          ∃ front, ':' ∉ front ∧ ruleChars text = front ++ ':' :: value)) ∧
      (':' ∉ ruleChars text →
        (Rule.Supported (ruleChars text) ↔ Rule.IsExact (ruleChars text))) := by
  intro text
  have hisOk : (parse text).isOk = true := by decide +kernel
  obtain ⟨r, hr⟩ := Except.exists_eq_ok_of_isOk hisOk
  exact ⟨r, hr, tolerated_of_parse hr⟩

/-- Texts that say more are read as well: a number of dates in front of a colon, another property,
and a list of months without a month. -/
theorem not_supported_of_parse :
    ((parse "COUNT=5:FREQ=DAILY").isOk = true ∧
      ¬Rule.Supported (ruleChars "COUNT=5:FREQ=DAILY")) ∧
    ((parse "EXRULE:FREQ=DAILY").isOk = true ∧ ¬Rule.Supported (ruleChars "EXRULE:FREQ=DAILY")) ∧
    ((parse "FREQ=DAILY;BYMONTH=").isOk = true ∧
      ¬Rule.Supported (ruleChars "FREQ=DAILY;BYMONTH=")) := by
  decide +kernel

end Recurrence

end MeetingCalendar
