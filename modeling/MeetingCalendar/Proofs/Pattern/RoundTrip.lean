import MeetingCalendar.Proofs.Pattern.Fields
import MeetingCalendar.Proofs.Pattern.Layout

/-!
# Moments written and read back

What a pattern writes for a moment is read back by it.  Reading goes token by token: what is left of
the text is always what the tokens to come write, but without blanks at its end, and without those
at its front where a blank literal or the trimming of the whole took them.  A pattern then gives the
date or the time back if it names enough of it.
-/

namespace MeetingCalendar.Pattern

/-! ## Token by token -/

def Token.written (m : Moment) : Token → List Char
  | field f => f.written m
  | literal c => [c]

def written (m : Moment) (tokens : List Token) : List Char :=
  tokens.flatMap (Token.written m)

/-- No digit follows a year. -/
def YearsEnd (m : Moment) : List Token → Prop
  | [] => True
  | token :: tokens =>
    (token = .field .year → ∀ c ∈ (written m tokens).head?, c.isDigit = false) ∧
      YearsEnd m tokens

variable {m : Moment}

theorem written_append (tokens others : List Token) :
    written m (tokens ++ others) = written m tokens ++ written m others :=
  List.flatMap_append

theorem written_map_literal (cs : List Char) : written m (cs.map .literal) = cs := by
  induction cs with
  | nil => rfl
  | cons c cs ih => exact congrArg (c :: ·) ih

theorem YearsEnd.of_append_right {tokens others : List Token}
    (h : YearsEnd m (tokens ++ others)) : YearsEnd m others := by
  induction tokens with
  | nil => exact h
  | cons token tokens ih => exact ih h.2

theorem YearsEnd.of_append_left {tokens others : List Token}
    (h : YearsEnd m (tokens ++ others)) : YearsEnd m tokens := by
  induction tokens with
  | nil => trivial
  | cons token tokens ih =>
    refine ⟨fun hyear c hc ↦ h.1 hyear c ?_, ih h.2⟩
    have hall : written m (tokens.append others) = written m tokens ++ written m others :=
      written_append tokens others
    rw [hall, List.head?_append, hc, Option.some_or]
    rfl

namespace Fields

theorem read?_blank {c : Char} (h : Text.isBlankChar c = true) (fields : Fields)
    (tokens : List Token) (cs : List Char) :
    fields.read? (.literal c :: tokens) cs = fields.read? tokens (Text.trimStart cs) := by
  rw [read?.eq_def]
  simp only [h, if_true]

theorem read?_literal {c : Char} (h : Text.isBlankChar c = false) (fields : Fields)
    (tokens : List Token) (cs : List Char) :
    fields.read? (.literal c :: tokens) (c :: cs) = fields.read? tokens cs := by
  rw [read?.eq_def]
  simp only [h, Bool.false_eq_true, if_false, if_true]

theorem read?_field {fields next : Fields} {field : Field} {cs rest : List Char}
    (h : fields.readField? field cs = some (next, rest)) (tokens : List Token) :
    fields.read? (.field field :: tokens) cs = next.read? tokens rest := by
  rw [read?.eq_def]
  simp only [h, Option.bind_eq_bind, Option.bind_some]

end Fields

/-- Tokens are read to the end of what they write, whether or not blanks in front are gone. -/
theorem read?_written {tokens : List Token} (hknown : .field .yearOfCentury ∉ tokens)
    (hyears : (0 ≤ m.date.year ∧ m.date.year ≤ 9999) ∨ YearsEnd m tokens) (seen : List Token)
    {cs : List Char} (hcs : cs = Text.trimEnd (written m tokens) ∨
      cs = Text.trimStart (Text.trimEnd (written m tokens))) :
    (said m seen).read? tokens cs = some (said m (tokens.reverse ++ seen)) := by
  induction tokens generalizing seen cs with
  | nil =>
    obtain rfl : cs = [] := by rcases hcs with rfl | rfl <;> rfl
    rfl
  | cons token tokens ih =>
    have hknown' : .field .yearOfCentury ∉ tokens := fun h ↦ hknown (List.mem_cons_of_mem _ h)
    have ih' (cs : List Char) := @ih hknown' (hyears.imp_right And.right) (token :: seen) cs
    have hseen : tokens.reverse ++ token :: seen = (token :: tokens).reverse ++ seen := by simp
    have hwritten : written m (token :: tokens) = token.written m ++ written m tokens := rfl
    rw [hseen] at ih'
    rw [hwritten] at hcs
    -- a word starts and ends what is left, so nothing of it is trimmed
    have hword (h : IsWord (token.written m)) :
        cs = token.written m ++ Text.trimEnd (written m tokens) := by
      rw [Text.trimEnd_append_of_not_blank h.2, Text.trimStart_append_of_not_blank h.1 h.2,
        or_self] at hcs
      exact hcs
    cases token with
    | literal c =>
      cases hc : Text.isBlankChar c with
      | true =>
        rw [Fields.read?_blank hc, ← said_literal m c seen]
        refine ih' _ (.inr ?_)
        have htrim : Text.trimStart (Text.trimEnd (c :: written m tokens)) =
            Text.trimStart (Text.trimEnd (written m tokens)) := by
          rw [Text.trimStart_trimEnd, Text.trimStart_cons_of_blank hc, Text.trimStart_trimEnd]
        rcases hcs with rfl | rfl
        · exact htrim
        · exact (Text.trimStart_trimStart _).trans htrim
      | false =>
        rw [hword ⟨List.cons_ne_nil _ _, by simpa [Token.written] using hc⟩]
        change (said m seen).read? _ (c :: Text.trimEnd (written m tokens)) = _
        rw [Fields.read?_literal hc, ← said_literal m c seen]
        exact ih' _ (.inl rfl)
    | field field =>
      rw [hword (field.isWord_written m)]
      have hfield : field ≠ .yearOfCentury := by
        rintro rfl
        exact hknown List.mem_cons_self
      have hend : field = .year → (0 ≤ m.date.year ∧ m.date.year ≤ 9999) ∨
          ∀ c ∈ (Text.trimEnd (written m tokens)).head?, c.isDigit = false := by
        rintro rfl
        exact hyears.imp_right fun h c hc ↦ h.1 rfl c (Text.mem_head?_of_trimEnd hc)
      rw [Token.written, Fields.read?_field (readField?_written hfield hend seen)]
      exact ih' _ (.inl rfl)

/-- What tokens write is read by them, whatever blanks are around it. -/
theorem read?_trimChars_written {tokens : List Token} (hknown : .field .yearOfCentury ∉ tokens)
    (hyears : (0 ≤ m.date.year ∧ m.date.year ≤ 9999) ∨ YearsEnd m tokens) :
    ({} : Fields).read? tokens (Text.trimChars (written m tokens)) =
      some (said m tokens.reverse) := by
  have hread := read?_written hknown hyears [] (.inr (Text.trimStart_trimEnd _).symm)
  rwa [said_nil, List.append_nil] at hread

/-! ## Dates and times -/

/-- The month is named by its number or by its name. -/
def NamesMonth (tokens : List Token) : Prop :=
  .field .month ∈ tokens ∨ .field .monthShort ∈ tokens ∨ .field .monthLong ∈ tokens

/-- The hour is named in full or together with the half of the day. -/
def NamesHour (tokens : List Token) : Prop :=
  .field .hour ∈ tokens ∨ .field .hourOfHalf ∈ tokens ∧ .field .half ∈ tokens

/-- Year, month and day make the date; a weekday next to them is the right one. -/
theorem date?_said {tokens : List Token} (hyear : .field .year ∈ tokens)
    (hmonth : NamesMonth tokens) (hday : .field .day ∈ tokens) :
    (said m tokens).date? = some m.date := by
  unfold NamesMonth at hmonth
  by_cases hweekday : .field .weekdayShort ∈ tokens ∨ .field .weekdayLong ∈ tokens
  · simp [Fields.date?, Fields.year?, said, hyear, hmonth, hday, hweekday]
  · simp [Fields.date?, Fields.year?, said, hyear, hmonth, hday, hweekday]

/-- Hour and minute make the time, and the second unless it is zero. -/
theorem time?_said {tokens : List Token} (hhour : NamesHour tokens)
    (hminute : .field .minute ∈ tokens) (hsecond : .field .second ∈ tokens ∨ m.time.second = 0) :
    (said m tokens).time? = some m.time := by
  have hafternoon : (said m tokens).afternoon = some (decide (12 ≤ m.time.hour)) :=
    if_pos (hhour.imp_right And.right)
  have hhalf : (said m tokens).hourOfHalf = some (m.time.hour % 12) :=
    if_pos (hhour.imp_right And.left)
  have hsecond' : (said m tokens).second.getD 0 = m.time.second := by
    by_cases hsaid : .field .second ∈ tokens
    · simp [said, hsaid]
    · simp [said, hsaid, hsecond.resolve_left hsaid]
  have hsum : (if 12 ≤ m.time.hour then 12 else 0) + m.time.hour % 12 = m.time.hour := by
    have hlt := m.time.hour_lt
    split <;> omega
  have hsaid : (said m tokens).minute = some m.time.minute := if_pos hminute
  simp [Fields.time?, hafternoon, hhalf, hsaid, hsecond', hsum]

/-! ## Layouts -/

namespace Piece

/-- What is written for a piece: numbers of two digits, a year of four digits or more, names in
full or by their first three letters, and literals as they are. -/
def written (m : Moment) : Piece → List Char
  | run 'y' _ => yearChars m.date.year
  | run 'M' length =>
    if length ≤ 2 then Text.paddedDigits 2 m.date.month
    else if length = 3 then (monthName m.date.month).toList.take 3
    else (monthName m.date.month).toList
  | run 'd' _ => Text.paddedDigits 2 m.date.day
  | run 'E' length =>
    if length ≤ 3 then m.date.weekday.name.toList.take 3 else m.date.weekday.name.toList
  | run 'H' _ => Text.paddedDigits 2 m.time.hour
  | run 'h' _ => Text.paddedDigits 2 (clockHour m.time.hour)
  | run 'm' _ => Text.paddedDigits 2 m.time.minute
  | run 's' _ => Text.paddedDigits 2 m.time.second
  | run 'a' _ => if m.time.hour < 12 then "AM".toList else "PM".toList
  | run _ _ => []
  | plain c => [c]
  | quoted text => text

/-- A piece that names the year. -/
def IsYear : Piece → Prop
  | run letter _ => letter = 'y'
  | _ => False

/-- A piece that may follow a year with a sign: a name, or a literal that starts with no digit. -/
def EndsYear : Piece → Prop
  | run letter length => letter = 'E' ∨ letter = 'a' ∨ letter = 'M' ∧ 3 ≤ length
  | plain c => c.isDigit = false
  | quoted text => ∀ c ∈ text.head?, c.isDigit = false

instance : DecidablePred IsYear
  | run letter _ => inferInstanceAs (Decidable (letter = 'y'))
  | plain _ => .isFalse id
  | quoted _ => .isFalse id

instance : DecidablePred EndsYear
  | run _ _ => inferInstanceAs (Decidable (_ = _ ∨ _ = _ ∨ _ = _ ∧ _ ≤ _))
  | plain _ => inferInstanceAs (Decidable (_ = _))
  | quoted text => Option.decidableForallMem text.head?

end Piece

namespace Layout

def text (layout : Layout) : String :=
  String.ofList layout.chars

def written (layout : Layout) (m : Moment) : String :=
  String.ofList (layout.pieces.flatMap (Piece.written m))

/-- A run of the letter is among the pieces. -/
def Names (layout : Layout) (letter : Char) : Prop :=
  ∃ length, .run letter length ∈ layout.pieces

/-- The layout names a date. -/
structure NamesDate (layout : Layout) : Prop where
  year : layout.Names 'y'
  month : layout.Names 'M'
  day : layout.Names 'd'

/-- The layout names a time, with its second unless that is zero. -/
structure NamesTime (layout : Layout) (t : TimeOfDay) : Prop where
  hour : layout.Names 'H' ∨ layout.Names 'h' ∧ layout.Names 'a'
  minute : layout.Names 'm'
  second : layout.Names 's' ∨ t.second = 0

/-- Every year is at the end or followed by a piece that ends it. -/
def EndsYears (layout : Layout) : Prop :=
  layout.pieces.IsChain fun piece next ↦ piece.IsYear → next.EndsYear

instance (layout : Layout) : Decidable layout.EndsYears :=
  inferInstanceAs (Decidable (List.IsChain _ _))

end Layout

/-- The token of a lexeme whose run names a field. -/
def Lexeme.token : Lexeme → Token
  | .run letter length => .field ((Field.ofRun? letter length).getD .year)
  | .literal c => .literal c

namespace Piece

def tokens (piece : Piece) : List Token :=
  piece.lexemes.map Lexeme.token

/-- A run names a field and writes it; only its letter names the year. -/
theorem exists_field_of_run {letter : Char} {length : Nat} (h : (run letter length).IsProper) :
    ∃ field, Field.ofRun? letter length = some field ∧ field ≠ .yearOfCentury ∧
      (field = .year → letter = 'y') ∧
      ∀ m, (run letter length).written m = field.written m := by
  obtain ⟨hmem, -, hyear⟩ := h
  simp only [fieldLetters, List.mem_cons, List.not_mem_nil, or_false] at hmem
  rcases hmem with rfl | rfl | rfl | rfl | rfl | rfl | rfl | rfl | rfl
  · exact ⟨.year, by simpa [Field.ofRun?] using hyear, by decide, fun _ ↦ rfl, fun m ↦ rfl⟩
  · by_cases hnumber : length ≤ 2
    · exact ⟨.month, by simp [Field.ofRun?, hnumber], by decide, by decide, fun m ↦
        if_pos hnumber⟩
    · by_cases hshort : length = 3
      · refine ⟨.monthShort, by simp [Field.ofRun?, hshort], by decide, by decide, fun m ↦ ?_⟩
        simp [written, Field.written, hshort]
      · refine ⟨.monthLong, by simp [Field.ofRun?, hnumber, hshort], by decide, by decide,
          fun m ↦ ?_⟩
        simp [written, Field.written, hnumber, hshort]
  · exact ⟨.day, rfl, by decide, by decide, fun m ↦ rfl⟩
  · by_cases hshort : length ≤ 3
    · exact ⟨.weekdayShort, by simp [Field.ofRun?, hshort], by decide, by decide, fun m ↦
        if_pos hshort⟩
    · exact ⟨.weekdayLong, by simp [Field.ofRun?, hshort], by decide, by decide, fun m ↦
        if_neg hshort⟩
  · exact ⟨.hour, rfl, by decide, by decide, fun m ↦ rfl⟩
  · exact ⟨.hourOfHalf, rfl, by decide, by decide, fun m ↦ rfl⟩
  · exact ⟨.minute, rfl, by decide, by decide, fun m ↦ rfl⟩
  · exact ⟨.second, rfl, by decide, by decide, fun m ↦ rfl⟩
  · exact ⟨.half, rfl, by decide, by decide, fun m ↦ rfl⟩

theorem ofLexeme_of_mem {piece : Piece} (h : piece.IsProper) {lexeme : Lexeme}
    (hlexeme : lexeme ∈ piece.lexemes) : Token.ofLexeme lexeme = .ok lexeme.token := by
  cases piece with
  | run letter length =>
    obtain rfl := List.mem_singleton.mp hlexeme
    obtain ⟨field, hfield, -⟩ := exists_field_of_run h
    simp only [Token.ofLexeme, Lexeme.token, hfield, Option.getD_some]
  | plain c =>
    obtain rfl := List.mem_singleton.mp hlexeme
    rfl
  | quoted text =>
    obtain ⟨c, -, rfl⟩ := List.mem_map.mp hlexeme
    rfl

theorem tokens_quoted (text : List Char) : (quoted text).tokens = text.map .literal :=
  List.map_map

/-- The tokens of a piece write what is written for it. -/
theorem written_tokens {piece : Piece} (h : piece.IsProper) (m : Moment) :
    Pattern.written m piece.tokens = piece.written m := by
  cases piece with
  | run letter length =>
    obtain ⟨field, hfield, -, -, hwritten⟩ := exists_field_of_run h
    rw [hwritten m, tokens, lexemes, List.map_singleton, Lexeme.token, hfield]
    exact List.append_nil _
  | plain c => rfl
  | quoted text =>
    rw [tokens_quoted, written_map_literal]
    rfl

/-- A year without its century is no token of a piece. -/
theorem yearOfCentury_notMem_tokens {piece : Piece} (h : piece.IsProper) :
    .field .yearOfCentury ∉ piece.tokens := by
  cases piece with
  | run letter length =>
    obtain ⟨field, hfield, hne, -⟩ := exists_field_of_run h
    simpa [tokens, lexemes, Lexeme.token, hfield] using hne.symm
  | plain c => simp [tokens, lexemes, Lexeme.token]
  | quoted text => simp [tokens_quoted]

/-- What ends a year starts with no digit. -/
theorem isDigit_eq_false_of_endsYear {piece : Piece} (h : piece.IsProper) (hends : piece.EndsYear)
    (m : Moment) {rest : List Char} {c : Char} (hc : c ∈ (piece.written m ++ rest).head?) :
    c.isDigit = false := by
  have hmonth := not_isDigit_monthName m.date.month_pos m.date.month_le
  have hweekday := not_isDigit_weekdayName m.date.weekday
  cases piece with
  | run letter length =>
    obtain ⟨field, -, -, -, hwritten⟩ := exists_field_of_run h
    have hne : (run letter length).written m ≠ [] := by
      rw [hwritten m]
      exact (field.isWord_written m).1
    rw [List.head?_append_of_ne_nil _ hne] at hc
    have hmem := List.mem_of_mem_head? hc
    rcases hends with rfl | rfl | ⟨rfl, hlong⟩
    · simp only [written] at hmem
      split at hmem
      · exact hweekday c (List.mem_of_mem_take hmem)
      · exact hweekday c hmem
    · simp only [written] at hmem
      have hall : ∀ c ∈ "AM".toList ++ "PM".toList, c.isDigit = false := by simp
      split at hmem
      · exact hall c (List.mem_append_left _ hmem)
      · exact hall c (List.mem_append_right _ hmem)
    · simp only [written, if_neg (Nat.not_le.mpr hlong)] at hmem
      split at hmem
      · exact hmonth c (List.mem_of_mem_take hmem)
      · exact hmonth c hmem
  | plain d =>
    obtain rfl : d = c := Option.some.inj hc
    exact hends
  | quoted text =>
    rw [written, List.head?_append_of_ne_nil _ h.1] at hc
    exact hends c hc

theorem written_flatMap_tokens {pieces : List Piece} (h : ∀ piece ∈ pieces, piece.IsProper)
    (m : Moment) :
    Pattern.written m (pieces.flatMap tokens) = pieces.flatMap (written m) := by
  induction pieces with
  | nil => rfl
  | cons piece pieces ih =>
    have htail := ih fun other hother ↦ h other (List.mem_cons_of_mem piece hother)
    rw [List.flatMap_cons, List.flatMap_cons, written_append, htail,
      written_tokens (h piece List.mem_cons_self)]

theorem yearsEnd_map_literal_append {m : Moment} (cs : List Char) {tokens : List Token}
    (h : YearsEnd m tokens) : YearsEnd m (cs.map .literal ++ tokens) := by
  induction cs with
  | nil => exact h
  | cons c cs ih => exact ⟨nofun, ih⟩

theorem yearsEnd_flatMap_tokens {pieces : List Piece} (h : ∀ piece ∈ pieces, piece.IsProper)
    (hends : pieces.IsChain fun piece next ↦ piece.IsYear → next.EndsYear) (m : Moment) :
    YearsEnd m (pieces.flatMap tokens) := by
  induction pieces with
  | nil => trivial
  | cons piece pieces ih =>
    have hproper : ∀ other ∈ pieces, other.IsProper := fun other hother ↦
      h other (List.mem_cons_of_mem piece hother)
    have htail := ih hproper hends.tail
    rw [List.flatMap_cons]
    cases piece with
    | run letter length =>
      obtain ⟨field, hfield, -, hletter, -⟩ := exists_field_of_run (h _ List.mem_cons_self)
      rw [tokens, lexemes, List.map_singleton, Lexeme.token, hfield, Option.getD_some,
        List.singleton_append]
      refine ⟨fun hyear c hc ↦ ?_, htail⟩
      cases pieces with
      | nil => cases hc
      | cons next pieces =>
        have hnext := (List.isChain_cons_cons.mp hends).1 (hletter (Token.field.inj hyear))
        rw [written_flatMap_tokens hproper, List.flatMap_cons] at hc
        exact isDigit_eq_false_of_endsYear (hproper next List.mem_cons_self) hnext m hc
    | plain c => exact yearsEnd_map_literal_append [c] htail
    | quoted text =>
      rw [tokens_quoted]
      exact yearsEnd_map_literal_append text htail

end Piece

namespace Layout

variable {layout : Layout}

def tokens (layout : Layout) : List Token :=
  layout.pieces.flatMap Piece.tokens

theorem toList_written (layout : Layout) (m : Moment) :
    (layout.written m).toList = Pattern.written m layout.tokens := by
  rw [written, String.toList_ofList, tokens, Piece.written_flatMap_tokens layout.proper]

theorem ofLexeme_of_mem_lexemes (layout : Layout) {lexeme : Lexeme}
    (h : lexeme ∈ lexemes layout.chars) :
    Token.ofLexeme lexeme = .ok lexeme.token := by
  rw [chars, lexemes_flatMap_chars layout.proper layout.apart] at h
  obtain ⟨piece, hpiece, hlexeme⟩ := List.mem_flatMap.mp h
  exact Piece.ofLexeme_of_mem (layout.proper piece hpiece) hlexeme

theorem tokens_eq_map (layout : Layout) :
    layout.tokens = (lexemes layout.chars).map Lexeme.token := by
  rw [chars, lexemes_flatMap_chars layout.proper layout.apart, List.map_flatMap]
  rfl

/-- The text of a layout without its blank ends is a pattern.  Its tokens are those of the layout
but for blank literals at the ends. -/
theorem exists_tokensOf_trimChars (layout : Layout) :
    ∃ (before after : List Char) (tokens : List Token),
      (∀ c ∈ before ++ after, Text.isBlankChar c = true) ∧
      tokensOf (Text.trimChars layout.chars) = .ok tokens ∧
      layout.tokens = before.map .literal ++ tokens ++ after.map .literal := by
  obtain ⟨before, after, hblank, hlexemes⟩ := exists_lexemes_trimChars layout.chars
  refine ⟨before, after, (lexemes (Text.trimChars layout.chars)).map Lexeme.token, hblank, ?_, ?_⟩
  · refine Except.mapM_eq_ok_map fun lexeme hlexeme ↦ layout.ofLexeme_of_mem_lexemes ?_
    rw [hlexemes]
    exact List.mem_append_left _ (List.mem_append_right _ hlexeme)
  · rw [tokens_eq_map, hlexemes, List.map_append, List.map_append, List.map_map, List.map_map]
    rfl

theorem mem_tokens_of_run {letter : Char} {length : Nat} {field : Field}
    (h : .run letter length ∈ layout.pieces) (hfield : Field.ofRun? letter length = some field) :
    .field field ∈ layout.tokens := by
  refine List.mem_flatMap.mpr ⟨_, h, ?_⟩
  simp [Piece.tokens, Piece.lexemes, Lexeme.token, hfield]

theorem yearOfCentury_notMem_tokens (layout : Layout) :
    .field .yearOfCentury ∉ layout.tokens := by
  intro h
  obtain ⟨piece, hpiece, hmem⟩ := List.mem_flatMap.mp h
  exact Piece.yearOfCentury_notMem_tokens (layout.proper piece hpiece) hmem

theorem NamesDate.mem_tokens (h : layout.NamesDate) :
    .field .year ∈ layout.tokens ∧ NamesMonth layout.tokens ∧ .field .day ∈ layout.tokens := by
  obtain ⟨⟨years, hyear⟩, ⟨months, hmonth⟩, ⟨days, hday⟩⟩ := h
  have hyears : ¬years = 2 := fun heq ↦ (layout.proper _ hyear).2.2 ⟨rfl, heq⟩
  refine ⟨mem_tokens_of_run hyear (by simp [Field.ofRun?, hyears]), ?_, mem_tokens_of_run hday rfl⟩
  by_cases hnumber : months ≤ 2
  · exact .inl (mem_tokens_of_run hmonth (by simp [Field.ofRun?, hnumber]))
  · by_cases hshort : months = 3
    · exact .inr (.inl (mem_tokens_of_run hmonth (by simp [Field.ofRun?, hshort])))
    · exact .inr (.inr (mem_tokens_of_run hmonth (by simp [Field.ofRun?, hnumber, hshort])))

theorem NamesTime.mem_tokens {t : TimeOfDay} (h : layout.NamesTime t) :
    NamesHour layout.tokens ∧ .field .minute ∈ layout.tokens ∧
      (.field .second ∈ layout.tokens ∨ t.second = 0) := by
  obtain ⟨hhour, ⟨minutes, hminute⟩, hsecond⟩ := h
  refine ⟨?_, mem_tokens_of_run hminute rfl, ?_⟩
  · rcases hhour with ⟨hours, hhour⟩ | ⟨⟨hours, hhour⟩, ⟨halves, hhalf⟩⟩
    · exact .inl (mem_tokens_of_run hhour rfl)
    · exact .inr ⟨mem_tokens_of_run hhour rfl, mem_tokens_of_run hhalf rfl⟩
  · exact hsecond.imp_left fun ⟨seconds, hsecond⟩ ↦ mem_tokens_of_run hsecond rfl

/-- What is written by a layout is read to its end by the pattern of its text, which then has been
told all that the layout names. -/
theorem read?_written (layout : Layout) :
    ∃ tokens, tokensOf (Text.trimChars layout.chars) = .ok tokens ∧
      (∀ field, .field field ∈ tokens ↔ .field field ∈ layout.tokens) ∧
      ∀ m : Moment, (0 ≤ m.date.year ∧ m.date.year ≤ 9999) ∨ layout.EndsYears →
        ({} : Fields).read? tokens (Text.trimChars (layout.written m).toList) =
          some (said m tokens.reverse) := by
  obtain ⟨before, after, tokens, hblank, htokens, heq⟩ := layout.exists_tokensOf_trimChars
  obtain ⟨hbefore, hafter⟩ := List.forall_mem_append.mp hblank
  have hmem (field : Field) : .field field ∈ tokens ↔ .field field ∈ layout.tokens := by
    simp [heq]
  have hknown : .field .yearOfCentury ∉ tokens := fun h ↦
    layout.yearOfCentury_notMem_tokens ((hmem _).mp h)
  refine ⟨tokens, htokens, hmem, fun m hyears ↦ ?_⟩
  have hyears' : (0 ≤ m.date.year ∧ m.date.year ≤ 9999) ∨ YearsEnd m tokens := by
    refine hyears.imp_right fun h ↦ ?_
    have hall : YearsEnd m layout.tokens := Piece.yearsEnd_flatMap_tokens layout.proper h m
    rw [heq] at hall
    exact hall.of_append_left.of_append_right
  have hwritten : Text.trimChars (layout.written m).toList =
      Text.trimChars (Pattern.written m tokens) := by
    rw [toList_written, heq, written_append, written_append, written_map_literal,
      written_map_literal, Text.trimChars_append_blanks hbefore hafter]
  rw [hwritten, read?_trimChars_written hknown hyears']

end Layout

end MeetingCalendar.Pattern
