import MeetingCalendar.Proofs.Json.Nulls
import MeetingCalendar.Proofs.Request.Alike
import MeetingCalendar.Proofs.Text

/-!
# Numbers and truth values as text

A request may send an integer or a truth value as such or as its JSON text, for a parameter by
itself and for single weekdays in a list.  The readers for texts, integers and truth values take
both spellings for the same, also where they refuse what is sent.  So a request that is spelled in
another way is read alike.
-/

namespace MeetingCalendar

/-- A value as such, or the JSON text of an integer or a truth value. -/
inductive Json.Respelled : Json → Json → Prop where
  | same (value : Json) : Respelled value value
  | integer (n : Int) : Respelled (.integer n) (.text (compact (.integer n)))
  | bool (b : Bool) : Respelled (.bool b) (.text (compact (.bool b)))

/-- The parameters that are read as texts, integers or truth values. -/
def Parameter.scalars : List String :=
  [title, description, location, duration, typeId, repeating, frequency, interval, repeatsOnDay,
    repeatsOnNthDayOfMonth, repeatsOnLastWeekdayOfMonth, remindById, firstReminderOffset,
    secondReminderOffset, rescheduleBasedOnMeetingDates]

/-- The value of a parameter in another spelling; in a list of weekdays any one may be respelled. -/
inductive Parameter.Respelled (name : String) : Json → Json → Prop where
  | same (value : Json) : Respelled name value value
  | value {value value' : Json} (hname : name ∈ scalars) (h : value.Respelled value') :
      Respelled name value value'
  | items {items items' : List Json} (hname : name = repeatsOnDay)
      (h : List.Forall₂ Json.Respelled items items') :
      Respelled name (.array items) (.array items')

/-- The same fields, each of them possibly in another spelling. -/
def Request.RespelledFields (fields fields' : List (String × Json)) : Prop :=
  List.Forall₂ (fun field field' ↦ field.1 = field'.1 ∧
    Parameter.Respelled field.1 field.2 field'.2) fields fields'

/-! ## Values -/

namespace Json

theorem compact_integer (n : Int) : compact (.integer n) = toString n := by
  simp [compact, scalarText?]

theorem compact_bool (b : Bool) : compact (.bool b) = if b then "true" else "false" := by
  cases b <;> simp [compact, scalarText?]

/-- An integer outside of 64 bits is refused in both spellings. -/
theorem asInteger_text_toString (n : Int) :
    asInteger (.text (toString n)) = asInteger (.integer n) := by
  calc
    asInteger (.text (toString n)) =
        .ofOption (Text.readInt64? (Text.trimChars (Text.integerChars n))) := by
      rw [asInteger, Text.isBlank_toString, Text.toList_toString]
      rfl
    _ = .ofOption ((some n).filter fun m ↦ Text.minInt64 ≤ m && m ≤ Text.maxInt64) := by
      rw [Text.trimChars_integerChars, Text.readInt64?, Text.readSignedWithin?,
        Text.readSigned?_integerChars]
    _ = asInteger (.integer n) := rfl

theorem toLower_of_mem_integerChars {n : Int} {c : Char} (h : c ∈ Text.integerChars n) :
    c.toLower = c := by
  have hlow : c.toNat < 65 := by
    rcases Text.mem_integerChars h with rfl | hdigit
    · decide
    · have hbounds := Text.toNat_of_isDigit hdigit
      omega
  apply dif_neg
  rintro ⟨hcapital, -⟩
  exact Nat.not_lt.mpr hcapital hlow

/-- Only signs and digits occur in the text of an integer, and at least one does. -/
theorem toString_integer_ne (n : Int) {word : String}
    (h : word = "" ∨ ∃ c ∈ word.toList, c ≠ '-' ∧ c.isDigit = false) : toString n ≠ word := by
  rintro rfl
  rw [Text.toList_toString] at h
  rcases h with hempty | ⟨c, hmem, hsign, hdigit⟩
  · apply Text.integerChars_ne_nil n
    rw [← Text.toList_toString, hempty]
    rfl
  · rcases Text.mem_integerChars hmem with rfl | hdigit'
    · exact hsign rfl
    · rw [hdigit] at hdigit'
      cases hdigit'

/-- The text of an integer is none of the words for truth values, and it is not blank. -/
theorem asBoolean_text_toString (n : Int) : asBoolean (.text (toString n)) = .invalid := by
  have hlower : String.ofList ((Text.trimChars (toString n).toList).map Char.toLower) =
      toString n := by
    rw [Text.toList_toString, Text.trimChars_integerChars,
      List.map_congr_left fun c ↦ toLower_of_mem_integerChars, List.map_id',
      ← Text.toList_toString, String.ofList_toList]
  simp only [asBoolean, hlower]
  split
  · next h => exact absurd h (toString_integer_ne n (.inl rfl))
  · next h => exact absurd h (toString_integer_ne n (.inr ⟨'t', by simp, by decide, rfl⟩))
  · next h => exact absurd h (toString_integer_ne n (.inr ⟨'f', by simp, by decide, rfl⟩))
  · rfl

namespace Respelled

variable {value value' : Json}

theorem asText_eq (h : value.Respelled value') : asText value = asText value' := by
  cases h with
  | same => rfl
  | integer n =>
    rw [compact_integer]
    rfl
  | bool b =>
    rw [compact_bool]
    cases b <;> rfl

theorem asInteger_eq (h : value.Respelled value') : asInteger value = asInteger value' := by
  cases h with
  | same => rfl
  | integer n => rw [compact_integer, asInteger_text_toString]
  | bool b =>
    rw [compact_bool]
    cases b <;> rfl

theorem asIntegers_eq (h : value.Respelled value') : asIntegers value = asIntegers value' := by
  have hinteger := h.asInteger_eq
  cases h with
  | same => rfl
  | integer n => exact congrArg (Parsed.map ([·])) hinteger
  | bool b => exact congrArg (Parsed.map ([·])) hinteger

theorem asBoolean_eq (h : value.Respelled value') : asBoolean value = asBoolean value' := by
  cases h with
  | same => rfl
  | integer n =>
    rw [compact_integer, asBoolean_text_toString]
    rfl
  | bool b =>
    rw [compact_bool]
    cases b <;> rfl

end Respelled

/-- Each item of a list is read for itself. -/
theorem asIntegers_array_eq {items items' : List Json}
    (h : List.Forall₂ Respelled items items') :
    asIntegers (.array items) = asIntegers (.array items') := by
  have hitems : items.mapM (fun item ↦ (asInteger item).value?) =
      items'.mapM fun item ↦ (asInteger item).value? := by
    induction h with
    | nil => rfl
    | cons hitem _ ih => rw [List.mapM_cons, List.mapM_cons, hitem.asInteger_eq, ih]
  exact congrArg Parsed.ofOption hitems

end Json

/-! ## Parameters -/

namespace Parameter.Respelled

variable {name : String} {value value' : Json}

theorem asText_eq (h : Respelled name value value') : value.asText = value'.asText := by
  cases h with
  | same => rfl
  | value _ h => exact h.asText_eq
  | items => rfl

theorem asInteger_eq (h : Respelled name value value') : value.asInteger = value'.asInteger := by
  cases h with
  | same => rfl
  | value _ h => exact h.asInteger_eq
  | items => rfl

theorem asIntegers_eq (h : Respelled name value value') :
    value.asIntegers = value'.asIntegers := by
  cases h with
  | same => rfl
  | value _ h => exact h.asIntegers_eq
  | items _ h => exact Json.asIntegers_array_eq h

theorem asBoolean_eq (h : Respelled name value value') : value.asBoolean = value'.asBoolean := by
  cases h with
  | same => rfl
  | value _ h => exact h.asBoolean_eq
  | items => rfl

/-- Other parameters have one spelling only. -/
theorem eq_of_not_mem (h : Respelled name value value') (hname : name ∉ scalars) :
    value = value' := by
  cases h with
  | same => rfl
  | value hmem => exact absurd hmem hname
  | items hday =>
    subst hday
    exact absurd (by decide) hname

/-- Null has no other spelling. -/
theorem eq_or_ne_null (h : Respelled name value value') :
    value = value' ∨ value ≠ .null ∧ value' ≠ .null := by
  cases h with
  | same => exact .inl rfl
  | items => exact .inr ⟨nofun, nofun⟩
  | value _ h =>
    cases h with
    | same => exact .inl rfl
    | integer n => exact .inr ⟨nofun, nofun⟩
    | bool b => exact .inr ⟨nofun, nofun⟩

end Parameter.Respelled

namespace Reading

variable {α : Type} {expected : Expected} {parse : Json → Parsed α}

/-- Values that a reader takes for the same are read alike. -/
theorem alike_of_parse_eq {value value' : Json} (hvalue : value ≠ .null) (hvalue' : value' ≠ .null)
    (h : parse value = parse value') :
    (Reading.of expected parse (some value)).Alike (Reading.of expected parse (some value')) := by
  rw [of_some hvalue, of_some hvalue', h]
  cases parse value' with
  | blank => exact .null
  | value v => exact .value v _ _
  | invalid => exact .invalid _ _ _

/-- What stands for a name in both spellings is read alike, and so is a name that stands for
nothing. -/
theorem alike_of_respelled {name : String} {found found' : Option Json}
    (h : Option.Rel (Parameter.Respelled name) found found')
    (hparse : ∀ {value value'}, Parameter.Respelled name value value' →
      parse value = parse value') :
    (Reading.of expected parse found).Alike (Reading.of expected parse found') := by
  cases h with
  | none => exact .absent
  | some hvalue =>
    rcases hvalue.eq_or_ne_null with rfl | ⟨hne, hne'⟩
    · exact .refl _
    · exact alike_of_parse_eq hne hne' (hparse hvalue)

end Reading

/-! ## Requests -/

namespace Request

variable {policy : RequestPolicy} {fields fields' : List (String × Json)}

theorem fields_of_ofJson {r : Request} (h : ofJson policy (.object fields) = .ok r) :
    r.fields = fields := by
  simp only [ofJson, ofFields, Except.bind_eq_ok_iff, Except.pure_eq_ok_iff] at h
  obtain ⟨dates, -, times, -, rfl⟩ := h
  rfl

namespace RespelledFields

theorem lookup (h : RespelledFields fields fields') (name : String) :
    Option.Rel (Parameter.Respelled name) (fields.lookup name) (fields'.lookup name) := by
  induction h with
  | nil => exact .none
  | @cons field field' _ _ hfield _ ih =>
    obtain ⟨key, value⟩ := field
    obtain ⟨key', value'⟩ := field'
    obtain ⟨rfl, hvalue⟩ : key = key' ∧ Parameter.Respelled key value value' := hfield
    rw [Json.lookup_cons_eq_ite, Json.lookup_cons_eq_ite]
    by_cases heq : name = key
    · rw [if_pos heq, if_pos heq, heq]
      exact .some hvalue
    · rw [if_neg heq, if_neg heq]
      exact ih

/-- Other parameters have one spelling only. -/
theorem lookup_eq (h : RespelledFields fields fields') {name : String}
    (hname : name ∉ Parameter.scalars) : fields.lookup name = fields'.lookup name := by
  have hlookup := h.lookup name
  generalize fields.lookup name = found at hlookup ⊢
  generalize fields'.lookup name = found' at hlookup ⊢
  cases hlookup with
  | none => rfl
  | some hvalue => rw [hvalue.eq_of_not_mem hname]

/-- A request in another spelling is read alike. -/
theorem alike (h : RespelledFields fields fields') (dates times : Pattern) :
    Alike ⟨fields, dates, times⟩ ⟨fields', dates, times⟩ where
  text name := Reading.alike_of_respelled (h.lookup name) fun hvalue ↦ hvalue.asText_eq
  integer name := Reading.alike_of_respelled (h.lookup name) fun hvalue ↦ hvalue.asInteger_eq
  integers name := Reading.alike_of_respelled (h.lookup name) fun hvalue ↦ hvalue.asIntegers_eq
  boolean name := Reading.alike_of_respelled (h.lookup name) fun hvalue ↦ hvalue.asBoolean_eq
  date name hname := by
    have hscalars : ∀ name ∈ Parameter.dates, name ∉ Parameter.scalars := by decide
    exact congrArg (Reading.of _ _) (h.lookup_eq (hscalars name hname))
  meetingTime := by
    have hscalars : Parameter.meetingTime ∉ Parameter.scalars := by decide
    exact congrArg (Reading.of _ _) (h.lookup_eq hscalars)

/-- The patterns of a request have one spelling only. -/
theorem ofJson_eq (h : RespelledFields fields fields') :
    ofJson policy (.object fields') =
      (ofJson policy (.object fields)).map fun r ↦ { r with fields := fields' } := by
  have hformats : ∀ name ∈ [Parameter.dateFormat, Parameter.timeFormat],
      name ∉ Parameter.scalars := by decide
  have hdate := h.lookup_eq (hformats Parameter.dateFormat (by decide))
  have htime := h.lookup_eq (hformats Parameter.timeFormat (by decide))
  simp only [ofJson, ofFields, patternText, hdate, htime]
  generalize (Pattern.ofText _).mapError _ = dates
  generalize (Pattern.ofText _).mapError _ = times
  cases dates with
  | error cause => rfl
  | ok dates =>
    cases times with
    | error cause => rfl
    | ok times => rfl

end RespelledFields

/-- Integers and truth values may be sent as text.  A request in which some of them are, under any
of the parameters that are read as texts, integers or truth values and in the list of weekdays, is a
request just as the one with the values themselves is; it breaks the same constraints under the same
parameters, and it describes the same event and the same update. -/
theorem sameOutcome_of_respelledFields (policy : RequestPolicy)
    (fields fields' : List (String × Json)) (h : RespelledFields fields fields') :
    (∀ cause, ofJson policy (.object fields) = .error cause →
      ofJson policy (.object fields') = .error cause) ∧
    ∀ r, ofJson policy (.object fields) = .ok r →
      ∃ r', ofJson policy (.object fields') = .ok r' ∧
        (∀ mode, (r.violations policy mode).map Violation.pair =
          (r'.violations policy mode).map Violation.pair) ∧
        CalendarError.SameOutcome r.toEvent r'.toEvent ∧ r.toUpdate = r'.toUpdate := by
  refine ⟨fun cause hcause ↦ ?_, fun r hr ↦ ?_⟩
  · rw [h.ofJson_eq, hcause]
    rfl
  · obtain ⟨found, dates, times⟩ := r
    obtain rfl : found = fields := fields_of_ofJson hr
    have halike := h.alike dates times
    have hr' : ofJson policy (.object fields') = .ok ⟨fields', dates, times⟩ := by
      rw [h.ofJson_eq, hr]
      rfl
    exact ⟨_, hr', fun _ ↦ halike.pairs_violations, halike.sameOutcome_toEvent,
      halike.toUpdate_eq⟩

/-- A weekly event of which the flag, one of the weekdays and a type that is too large to be one are
sent as text. -/
theorem sameOutcome_of_respelledFields_weekdays :
    let policy : RequestPolicy := {}
    let fields := [(Parameter.title, Json.text "Meeting"),
      (Parameter.typeId, .integer 10000000000000000000), (Parameter.repeating, .bool true),
      (Parameter.frequency, .integer 2), (Parameter.repeatsOnDay, .array [.integer 5, .integer 1])]
    let fields' := [(Parameter.title, Json.text "Meeting"),
      (Parameter.typeId, .text "10000000000000000000"), (Parameter.repeating, .text "true"),
      (Parameter.frequency, .integer 2), (Parameter.repeatsOnDay, .array [.integer 5, .text "1"])]
    ∃ r r', RespelledFields fields fields' ∧ ofJson policy (.object fields) = .ok r ∧
      ofJson policy (.object fields') = .ok r' ∧
      (r.violations policy .create).map Violation.pair =
        (r'.violations policy .create).map Violation.pair ∧
      CalendarError.SameOutcome r.toEvent r'.toEvent := by
  intro policy fields fields'
  have hinteger (n : Int) {s : String} (hs : toString n = s) :
      Json.Respelled (.integer n) (.text s) := by
    rw [← hs, ← Json.compact_integer]
    exact .integer n
  have htype : Json.Respelled (.integer 10000000000000000000) (.text "10000000000000000000") :=
    hinteger _ (by decide +kernel)
  have hday : Json.Respelled (.integer 1) (.text "1") := hinteger _ (by decide +kernel)
  have hflag : Json.Respelled (.bool true) (.text "true") := by
    have htrue : Json.compact (.bool true) = "true" := Json.compact_bool true
    rw [← htrue]
    exact .bool true
  have hfields : RespelledFields fields fields' :=
    .cons ⟨rfl, .same _⟩ <| .cons ⟨rfl, .value (by decide) htype⟩ <|
      .cons ⟨rfl, .value (by decide) hflag⟩ <| .cons ⟨rfl, .same _⟩ <|
      .cons ⟨rfl, .items rfl (.cons (.same _) (.cons hday .nil))⟩ .nil
  have hisOk : (ofJson policy (.object fields)).isOk = true := by decide +kernel
  obtain ⟨r, hr⟩ := Except.exists_eq_ok_of_isOk hisOk
  obtain ⟨-, hsame⟩ := sameOutcome_of_respelledFields policy fields fields' hfields
  obtain ⟨r', hr', hpairs, hevent, -⟩ := hsame r hr
  exact ⟨r, r', hfields, hr, hr', hpairs .create, hevent⟩

end Request

end MeetingCalendar
