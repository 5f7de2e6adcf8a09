import Mathlib.Data.List.Permutation
import MeetingCalendar.Proofs.Json.Nulls
import MeetingCalendar.Proofs.Request.Formats

/-!
# Default patterns

A request that names no pattern for its dates or times is read by the configured ones.  A text is a
pattern when every run of a letter in it, outside quoted text, is the letter of a field.  The check
of settings asks only whether the default patterns are blank, so settings that pass it may still
have a default that is no pattern.  Under such settings every request that relies on the defaults is
refused, whatever else it says.
-/

namespace MeetingCalendar

open Pattern

namespace Pattern

/-- Every run of a letter in a text stands for a field. -/
def NamesFields (text : String) : Prop :=
  ∀ letter length, Lexeme.run letter length ∈ lexemes text.toList → letter ∈ Piece.fieldLetters

/-- A text is a pattern when it names fields only. -/
theorem exists_ofText_iff {text : String} :
    (∃ pattern, Pattern.ofText text = .ok pattern) ↔ NamesFields text := by
  have htokens : (∃ pattern, Pattern.ofText text = .ok pattern) ↔
      ∃ tokens, tokensOf text.toList = .ok tokens := by
    constructor
    · rintro ⟨pattern, h⟩
      unfold Pattern.ofText at h
      split at h
      · next tokens htokens => exact ⟨tokens, htokens⟩
      · cases h
    · rintro ⟨tokens, h⟩
      obtain ⟨pattern, hpattern, -⟩ := exists_ofText h
      exact ⟨pattern, hpattern⟩
  rw [htokens]
  constructor
  · rintro ⟨tokens, h⟩ letter length hrun
    obtain ⟨token, -, htoken⟩ := Except.exists_mem_of_mapM_eq_ok h _ hrun
    exact exists_ofLexeme_iff.mp ⟨token, htoken⟩ letter length rfl
  · intro h
    have hlexemes : ∀ lexeme ∈ lexemes text.toList, ∃ token, Token.ofLexeme lexeme = .ok token :=
      fun lexeme hlexeme ↦ exists_ofLexeme_iff.mpr fun letter length heq ↦
        h letter length (heq ▸ hlexeme)
    obtain ⟨tokens, htokens, -⟩ := Except.exists_mapM_eq_ok hlexemes
    exact ⟨tokens, htokens⟩

end Pattern

namespace Request

variable {policy : RequestPolicy} {fields : List (String × Json)}

theorem patternText_of_lookup_eq_none {key : String} (h : fields.lookup key = none)
    (default : String) : patternText fields key default = default := by
  rw [patternText, h]

/-- Fields that name no pattern form a request when both default patterns are patterns. -/
theorem exists_ofFields_iff (hdate : fields.lookup Parameter.dateFormat = none)
    (htime : fields.lookup Parameter.timeFormat = none) :
    (∃ r, ofFields policy fields = .ok r) ↔
      NamesFields policy.defaultDatePattern ∧ NamesFields policy.defaultTimePattern := by
  unfold ofFields
  simp only [patternText_of_lookup_eq_none hdate, patternText_of_lookup_eq_none htime,
    Except.bind_eq_ok_iff, Except.mapError_eq_ok_iff, Except.pure_eq_ok_iff,
    ← exists_ofText_iff]
  constructor
  · rintro ⟨r, dates, hdates, times, htimes, -⟩
    exact ⟨⟨dates, hdates⟩, ⟨times, htimes⟩⟩
  · rintro ⟨⟨dates, hdates⟩, ⟨times, htimes⟩⟩
    exact ⟨⟨fields, dates, times⟩, dates, hdates, times, htimes, rfl⟩

/-- Fields that name no pattern are refused for a default pattern only. -/
theorem ofFields_eq_error (hdate : fields.lookup Parameter.dateFormat = none)
    (htime : fields.lookup Parameter.timeFormat = none) {cause : MalformedRequest}
    (h : ofFields policy fields = .error cause) :
    ∃ run, cause = .dateField run policy.defaultDatePattern ∨
      cause = .timeField run policy.defaultTimePattern := by
  unfold ofFields at h
  simp only [patternText_of_lookup_eq_none hdate, patternText_of_lookup_eq_none htime,
    Except.bind_eq_error_iff, Except.mapError_eq_error_iff] at h
  rcases h with ⟨run, -, rfl⟩ | ⟨dates, -, ⟨run, -, rfl⟩ | ⟨times, -, hpure⟩⟩
  · exact ⟨run, .inl rfl⟩
  · exact ⟨run, .inr rfl⟩
  · cases hpure

theorem ofBody_of_parse? {body : String} (h : Json.parse? body = some (.object fields)) :
    ofBody policy body = ofFields policy fields := by
  unfold ofBody
  rw [if_neg (by simp [Json.isBlank_of_parse? h]), h]
  rfl

end Request

namespace Settings

theorem validate_eq_ok_iff {s : Settings} :
    s.validate = .ok () ↔ (∀ limit ∈ s.limits, limit.2 ≠ 0) ∧
      ∀ pattern ∈ s.patterns, Text.isBlank pattern.2 = false := by
  unfold validate
  split
  · next key limit hfound =>
    have hzero : limit = 0 := by simpa using List.find?_some hfound
    have hmem := List.mem_of_find?_eq_some hfound
    exact ⟨nofun, fun h ↦ absurd hzero (h.1 _ hmem)⟩
  · next hlimits =>
    rw [List.find?_eq_none] at hlimits
    have hnonzero : ∀ limit ∈ s.limits, limit.2 ≠ 0 := by simpa using hlimits
    split
    · next key pattern hfound =>
      have hblank : Text.isBlank pattern = true := by simpa using List.find?_some hfound
      have hmem := List.mem_of_find?_eq_some hfound
      exact ⟨nofun, fun h ↦ absurd hblank (Bool.eq_false_iff.mp (h.2 _ hmem))⟩
    · next hpatterns =>
      rw [List.find?_eq_none] at hpatterns
      exact ⟨fun _ ↦ ⟨hnonzero, by simpa using hpatterns⟩, fun _ ↦ rfl⟩

/-- Settings are accepted when no limit is zero and no default pattern is blank.  A body that names
no pattern itself is a request under them exactly when their default patterns name fields only, and
otherwise it is refused for one of these patterns. -/
theorem exists_ofBody_iff_namesFields (s : Settings) :
    (s.validate = .ok () ↔ (∀ limit ∈ s.limits, limit.2 ≠ 0) ∧
      ∀ pattern ∈ s.patterns, Text.isBlank pattern.2 = false) ∧
    ∀ (body : String) (fields : List (String × Json)),
      Json.parse? body = some (.object fields) →
      fields.lookup Parameter.dateFormat = none → fields.lookup Parameter.timeFormat = none →
        ((∃ r, Request.ofBody s.requests body = .ok r) ↔
          ∀ pattern ∈ s.patterns, NamesFields pattern.2) ∧
        ∀ cause, Request.ofBody s.requests body = .error cause →
          ∃ run, cause = .dateField run s.requests.defaultDatePattern ∨
            cause = .timeField run s.requests.defaultTimePattern := by
  refine ⟨validate_eq_ok_iff, fun body fields hbody hdate htime ↦ ?_⟩
  rw [Request.ofBody_of_parse? hbody]
  refine ⟨?_, fun cause ↦ Request.ofFields_eq_error hdate htime⟩
  rw [Request.exists_ofFields_iff hdate htime]
  simp [patterns]

/-- With the names of months in dates, a body that leaves the patterns to the settings is a
request. -/
theorem exists_ofBody_iff_namesFields_month_name :
    let s : Settings :=
      { requests := { defaultDatePattern := "d MMMM yyyy", defaultTimePattern := "h:mm a" } }
    let body := "\x7b\"title\": \"Center meeting\", \"startDate\": \"26 January 2024\"\x7d"
    let fields := [("startDate", .text "26 January 2024"), ("title", .text "Center meeting")]
    (Json.parse? body = some (.object fields) ∧ fields.lookup Parameter.dateFormat = none ∧
      fields.lookup Parameter.timeFormat = none) ∧
    (∀ pattern ∈ s.patterns, NamesFields pattern.2) ∧
    ((∃ r, Request.ofBody s.requests body = .ok r) ↔
      ∀ pattern ∈ s.patterns, NamesFields pattern.2) := by
  intro s body fields
  have hbody : Json.parse? body = some (.object fields) := by
    subst body fields
    cbv
  have hiff := ((exists_ofBody_iff_namesFields s).2 body fields hbody rfl rfl).1
  have hread : ∃ r, Request.ofBody s.requests body = .ok r :=
    Except.exists_eq_ok_of_isOk (by decide +kernel)
  exact ⟨⟨hbody, rfl, rfl⟩, hiff.mp hread, hiff⟩

/-- Settings may be accepted although no request can rely on their default patterns. -/
theorem not_exists_ofBody_of_validate :
    ¬∀ s : Settings, s.validate = .ok () → ∀ (body : String) (fields : List (String × Json)),
      Json.parse? body = some (.object fields) →
      fields.lookup Parameter.dateFormat = none → fields.lookup Parameter.timeFormat = none →
        ∃ r, Request.ofBody s.requests body = .ok r := by
  intro h
  let s : Settings := { requests := { defaultDatePattern := "ww" } }
  obtain ⟨r, hr⟩ := h s (by decide +kernel) "\x7b\x7d" [] rfl rfl rfl
  have hrefused : (Request.ofBody s.requests "\x7b\x7d").isOk = false := by decide +kernel
  rw [hr] at hrefused
  cases hrefused

end Settings

end MeetingCalendar
