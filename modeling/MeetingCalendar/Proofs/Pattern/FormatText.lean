import MeetingCalendar.Proofs.Pattern.Scanner

/-!
# Reading format texts back

A format text is read from the left: two percent signs are one percent sign, a percent sign with
another letter behind it is a field, and any other character stands for itself.  The text of a pattern
is used up by this and gives what the grammar finds in the pattern, piece by piece, so literal text
never becomes a field and no field becomes text.  A pattern has no format text exactly when the
grammar finds a run of a letter that names no field, and then the first such run is the error.
-/

namespace MeetingCalendar.Pattern

/-- The field that a letter behind a percent sign stands for. -/
def Field.ofLetter? : Char → Option Field
  | 'Y' => some year
  | 'y' => some yearOfCentury
  | 'm' => some month
  | 'b' => some monthShort
  | 'B' => some monthLong
  | 'd' => some day
  | 'H' => some hour
  | 'I' => some hourOfHalf
  | 'M' => some minute
  | 'S' => some second
  | 'p' => some half
  | 'a' => some weekdayShort
  | 'A' => some weekdayLong
  | _ => none

/-- Reads a format text to its end.  A percent sign must have a percent sign or the letter of a field
behind it. -/
def readFormat? : List Char → Option (List Token)
  | [] => some []
  | ['%'] => none
  | '%' :: '%' :: rest => (readFormat? rest).map (.literal '%' :: ·)
  | '%' :: letter :: rest => do
    let field ← Field.ofLetter? letter
    (readFormat? rest).map (.field field :: ·)
  | c :: rest => (readFormat? rest).map (.literal c :: ·)

/-- What a piece of a pattern stands for: a field by the letter of a run and its length, or a
character as it is. -/
inductive Lexeme.Denotes : Lexeme → Token → Prop
  | literal (c : Char) : Denotes (.literal c) (.literal c)
  | year {length : Nat} (h : length ≠ 2) : Denotes (.run 'y' length) (.field .year)
  | yearOfCentury : Denotes (.run 'y' 2) (.field .yearOfCentury)
  | month {length : Nat} (h : length ≤ 2) : Denotes (.run 'M' length) (.field .month)
  | monthShort : Denotes (.run 'M' 3) (.field .monthShort)
  | monthLong {length : Nat} (h : 3 < length) : Denotes (.run 'M' length) (.field .monthLong)
  | day (length : Nat) : Denotes (.run 'd' length) (.field .day)
  | hour (length : Nat) : Denotes (.run 'H' length) (.field .hour)
  | hourOfHalf (length : Nat) : Denotes (.run 'h' length) (.field .hourOfHalf)
  | minute (length : Nat) : Denotes (.run 'm' length) (.field .minute)
  | second (length : Nat) : Denotes (.run 's' length) (.field .second)
  | half (length : Nat) : Denotes (.run 'a' length) (.field .half)
  | weekdayShort {length : Nat} (h : length ≤ 3) :
      Denotes (.run 'E' length) (.field .weekdayShort)
  | weekdayLong {length : Nat} (h : 3 < length) : Denotes (.run 'E' length) (.field .weekdayLong)

theorem readFormat?_of_ne {c : Char} (h : c ≠ '%') (rest : List Char) :
    readFormat? (c :: rest) = (readFormat? rest).map (.literal c :: ·) := by
  rw [readFormat?]
  -- the equation holds where no percent sign is in front
  all_goals
    intros
    contradiction

theorem readFormat?_field (field : Field) (rest : List Char) :
    readFormat? ('%' :: field.letter :: rest) = (readFormat? rest).map (.field field :: ·) := by
  cases field <;> rfl

/-- A token is read back from the front, whatever follows it. -/
theorem readFormat?_append (token : Token) (rest : List Char) :
    readFormat? (token.formatChars ++ rest) = (readFormat? rest).map (token :: ·) := by
  cases token with
  | field field => exact readFormat?_field field rest
  | literal c =>
    by_cases h : c = '%'
    · subst h
      rfl
    · rw [Token.formatChars, if_neg h]
      exact readFormat?_of_ne h rest

/-- The tokens of a format text are read back in order. -/
theorem readFormat?_formatChars (tokens : List Token) :
    readFormat? (formatChars tokens) = some tokens := by
  induction tokens with
  | nil => rfl
  | cons token tokens ih =>
    calc
      readFormat? (formatChars (token :: tokens)) =
          readFormat? (token.formatChars ++ formatChars tokens) := by
        rw [formatChars, List.flatMap_cons, formatChars]
      _ = (readFormat? (formatChars tokens)).map (token :: ·) := readFormat?_append token _
      _ = some (token :: tokens) := by rw [ih, Option.map_some]

example : readFormat? "%d%%%m".toList = some [.field .day, .literal '%', .field .month] := rfl

theorem Lexeme.Denotes.ofLexeme_eq {piece : Lexeme} {token : Token} (h : piece.Denotes token) :
    Token.ofLexeme piece = .ok token := by
  cases h with
  | year h => simp [Token.ofLexeme, Field.ofRun?, h]
  | month h => simp [Token.ofLexeme, Field.ofRun?, h]
  | @monthLong length h =>
    have hnumber : ¬length ≤ 2 := by omega
    have hshort : length ≠ 3 := by omega
    simp [Token.ofLexeme, Field.ofRun?, hnumber, hshort]
  | weekdayShort h => simp [Token.ofLexeme, Field.ofRun?, h]
  | weekdayLong h => simp [Token.ofLexeme, Field.ofRun?, Nat.not_le_of_gt h]
  | _ => rfl

/-- A letter of the fields has one whatever the length of its run. -/
theorem exists_denotes {letter : Char} (h : letter ∈ Piece.fieldLetters) (length : Nat) :
    ∃ token, (Lexeme.run letter length).Denotes token := by
  simp only [Piece.fieldLetters, List.mem_cons, List.not_mem_nil, or_false] at h
  rcases h with rfl | rfl | rfl | rfl | rfl | rfl | rfl | rfl | rfl
  · by_cases hlength : length = 2
    · subst hlength
      exact ⟨_, .yearOfCentury⟩
    · exact ⟨_, .year hlength⟩
  · obtain hlength | rfl | hlength : length ≤ 2 ∨ length = 3 ∨ 3 < length := by omega
    · exact ⟨_, .month hlength⟩
    · exact ⟨_, .monthShort⟩
    · exact ⟨_, .monthLong hlength⟩
  · exact ⟨_, .day length⟩
  · rcases Nat.lt_or_ge 3 length with hlength | hlength
    · exact ⟨_, .weekdayLong hlength⟩
    · exact ⟨_, .weekdayShort hlength⟩
  · exact ⟨_, .hour length⟩
  · exact ⟨_, .hourOfHalf length⟩
  · exact ⟨_, .minute length⟩
  · exact ⟨_, .second length⟩
  · exact ⟨_, .half length⟩

theorem ofLexeme_eq_ok_iff {piece : Lexeme} {token : Token} :
    Token.ofLexeme piece = .ok token ↔ piece.Denotes token := by
  constructor
  · intro h
    cases piece with
    | literal c =>
      cases h
      exact .literal c
    | run letter length =>
      have hmem : letter ∈ Piece.fieldLetters := exists_ofLexeme_iff.mp ⟨token, h⟩ letter length rfl
      obtain ⟨denoted, hdenoted⟩ := exists_denotes hmem length
      cases h.symm.trans hdenoted.ofLexeme_eq
      exact hdenoted
  · exact Lexeme.Denotes.ofLexeme_eq

/-- A piece without a token is a run of a letter that names no field. -/
theorem exists_run_of_ofLexeme_eq_error {piece : Lexeme} {run : List Char}
    (h : Token.ofLexeme piece = .error run) :
    ∃ letter length, piece = .run letter length ∧ letter ∉ Piece.fieldLetters ∧
      run = List.replicate length letter := by
  cases piece with
  | literal c => cases h
  | run letter length =>
    rw [Token.ofLexeme] at h
    split at h
    · cases h
    · next hfield =>
      have hnone : ¬∃ field, Field.ofRun? letter length = some field := by
        rintro ⟨field, heq⟩
        cases hfield.symm.trans heq
      exact ⟨letter, length, rfl, fun hmem ↦ hnone (exists_ofRun?_iff.mpr hmem),
        (Except.error.inj h).symm⟩

/-- A pattern has exactly one reading, and its format text is found in as many rounds as it has
characters.  Either every run of the reading names a field, and reading the format text back gives
what the pieces stand for in order; or the error is the first run whose letter names none. -/
theorem exists_reads_formatText (pattern : String) :
    ∃ pieces, (∀ other, Reads pattern.toList other ↔ other = pieces) ∧
      Scanner.formatText? pattern.length pattern = some (formatText pattern) ∧
      ((∃ text tokens, formatText pattern = .ok text ∧ readFormat? text.toList = some tokens ∧
          List.Forall₂ Lexeme.Denotes pieces tokens) ∨
        ∃ before letter length after,
          formatText pattern = .error (String.ofList (List.replicate length letter)) ∧
          pieces = before ++ .run letter length :: after ∧ letter ∉ Piece.fieldLetters ∧
          ∀ piece ∈ before, ∃ token, piece.Denotes token) := by
  refine ⟨lexemes pattern.toList, fun other ↦ reads_iff, Scanner.formatText?_length pattern, ?_⟩
  cases htokens : tokensOf pattern.toList with
  | ok tokens =>
    left
    have hpieces := Except.mapM_eq_ok_iff.mp htokens
    simp only [ofLexeme_eq_ok_iff] at hpieces
    refine ⟨String.ofList (formatChars tokens), tokens, by rw [formatText, htokens], ?_, hpieces⟩
    rw [String.toList_ofList]
    exact readFormat?_formatChars tokens
  | error run =>
    right
    obtain ⟨before, piece, after, hpieces, hbefore, hpiece⟩ :=
      Except.exists_append_of_mapM_eq_error htokens
    obtain ⟨letter, length, rfl, hletter, rfl⟩ := exists_run_of_ofLexeme_eq_error hpiece
    simp only [ofLexeme_eq_ok_iff] at hbefore
    exact ⟨before, letter, length, after, by rw [formatText, htokens], hpieces, hletter, hbefore⟩

end MeetingCalendar.Pattern
