import Mathlib.Data.List.Chain
import MeetingCalendar.Pattern.Reading
import MeetingCalendar.Proofs.Except
import MeetingCalendar.Proofs.Text

/-!
# Layouts of patterns

A layout is a pattern taken apart as its author thinks of it: runs of letters for the fields, and
between them characters and quoted texts that stand for themselves.  Two runs of one letter in a row
would be a single run, so a layout keeps them apart.  Cutting the text of a layout gives its pieces
back, and the blank ends that are trimmed from a pattern are literals.
-/

namespace MeetingCalendar.Pattern

inductive Piece where
  | run (letter : Char) (length : Nat)
  | plain (c : Char)
  | quoted (text : List Char)
  deriving DecidableEq, Repr

namespace Piece

def fieldLetters : List Char :=
  ['y', 'M', 'd', 'E', 'H', 'h', 'm', 's', 'a']

/-- A run names a field other than a year without its century; a single character is no letter and
no quote; quoted text is not empty and holds no quote. -/
def IsProper : Piece → Prop
  | run letter length => letter ∈ fieldLetters ∧ 0 < length ∧ ¬(letter = 'y' ∧ length = 2)
  | plain c => c.isAlpha = false ∧ c ≠ '\''
  | quoted text => text ≠ [] ∧ '\'' ∉ text

/-- Two pieces do not run together. -/
def Apart : Piece → Piece → Prop
  | run a _, run b _ => a ≠ b
  | _, _ => True

instance : DecidablePred IsProper
  | run _ _ => inferInstanceAs (Decidable (_ ∧ _ ∧ ¬(_ ∧ _)))
  | plain _ => inferInstanceAs (Decidable (_ = _ ∧ _ ≠ _))
  | quoted _ => inferInstanceAs (Decidable (_ ≠ _ ∧ _ ∉ _))

instance : DecidableRel Apart
  | run a _, run b _ => inferInstanceAs (Decidable (a ≠ b))
  | run _ _, plain _ => .isTrue trivial
  | run _ _, quoted _ => .isTrue trivial
  | plain _, _ => .isTrue trivial
  | quoted _, _ => .isTrue trivial

def chars : Piece → List Char
  | run letter length => List.replicate length letter
  | plain c => [c]
  | quoted text => '\'' :: text ++ ['\'']

/-- What a piece is cut into. -/
def lexemes : Piece → List Lexeme
  | run letter length => [.run letter length]
  | plain c => [.literal c]
  | quoted text => text.map .literal

end Piece

structure Layout where
  pieces : List Piece
  proper : ∀ piece ∈ pieces, piece.IsProper
  apart : pieces.IsChain Piece.Apart

def Layout.chars (layout : Layout) : List Char :=
  layout.pieces.flatMap Piece.chars

/-! ## Tokens of pieces -/

theorem exists_ofRun?_iff {letter : Char} {length : Nat} :
    (∃ field, Field.ofRun? letter length = some field) ↔ letter ∈ Piece.fieldLetters := by
  constructor
  · rintro ⟨field, h⟩
    by_contra hmem
    simp only [Piece.fieldLetters, List.mem_cons, List.not_mem_nil, or_false, not_or] at hmem
    simp [Field.ofRun?, hmem] at h
  · intro h
    simp only [Piece.fieldLetters, List.mem_cons, List.not_mem_nil, or_false] at h
    rcases h with rfl | rfl | rfl | rfl | rfl | rfl | rfl | rfl | rfl
    all_goals exact ⟨_, rfl⟩

theorem exists_ofLexeme_iff {lexeme : Lexeme} :
    (∃ token, Token.ofLexeme lexeme = .ok token) ↔
      ∀ letter length, lexeme = .run letter length → letter ∈ Piece.fieldLetters := by
  cases lexeme with
  | literal c => exact ⟨fun _ ↦ nofun, fun _ ↦ ⟨_, rfl⟩⟩
  | run letter length =>
    have hrun : (∃ token, Token.ofLexeme (.run letter length) = .ok token) ↔
        ∃ field, Field.ofRun? letter length = some field := by
      cases hfield : Field.ofRun? letter length <;> simp [Token.ofLexeme, hfield]
    rw [hrun, exists_ofRun?_iff]
    constructor
    · rintro h _ _ ⟨⟩
      exact h
    · exact fun h ↦ h letter length rfl

/-- Literals stand for themselves. -/
theorem mapM_literal (text : List Char) :
    (text.map Lexeme.literal).mapM Token.ofLexeme = .ok (text.map Token.literal) := by
  rw [List.mapM_map]
  exact Except.mapM_eq_ok_map fun c _ ↦ rfl

/-! ## Cutting -/

section Cutting

variable {c : Char} {cs text : List Char}

theorem lexemesFrom_nil (quoted : Bool) : lexemesFrom quoted [] = [] := by
  rw [lexemesFrom]

theorem lexemesFrom_true_quote (cs : List Char) :
    lexemesFrom true ('\'' :: cs) = lexemesFrom false cs := by
  rw [lexemesFrom.eq_def]
  rfl

theorem lexemesFrom_true_of_ne (h : c ≠ '\'') (cs : List Char) :
    lexemesFrom true (c :: cs) = .literal c :: lexemesFrom true cs := by
  rw [lexemesFrom.eq_def]
  simp only [if_neg h, if_true]

theorem lexemesFrom_false_quote_quote (cs : List Char) :
    lexemesFrom false ('\'' :: '\'' :: cs) = .literal '\'' :: lexemesFrom false cs := by
  rw [lexemesFrom.eq_def]
  rfl

theorem lexemesFrom_false_quote (h : ∀ rest, cs ≠ '\'' :: rest) :
    lexemesFrom false ('\'' :: cs) = lexemesFrom true cs := by
  rw [lexemesFrom.eq_def]
  simp only [Bool.false_eq_true, if_false, if_true]

theorem lexemesFrom_letter (hletter : c.isAlpha = true) (hquote : c ≠ '\'') (cs : List Char) :
    lexemesFrom false (c :: cs) =
      .run c ((cs.takeWhile (· = c)).length + 1) :: lexemesFrom false (cs.dropWhile (· = c)) := by
  rw [lexemesFrom.eq_def]
  simp only [Bool.false_eq_true, if_neg hquote, hletter, if_false, if_true]

theorem lexemesFrom_plain (hletter : c.isAlpha = false) (hquote : c ≠ '\'') (quoted : Bool)
    (cs : List Char) : lexemesFrom quoted (c :: cs) = .literal c :: lexemesFrom quoted cs := by
  cases quoted with
  | true => exact lexemesFrom_true_of_ne hquote cs
  | false =>
    rw [lexemesFrom.eq_def]
    simp only [Bool.false_eq_true, if_neg hquote, hletter, if_false]

/-- The letters of a run are taken, up to where another character comes. -/
theorem takeWhile_run (h : cs.head? ≠ some c) (length : Nat) :
    (List.replicate length c ++ cs).takeWhile (· = c) = List.replicate length c := by
  have hrun : ∀ d ∈ List.replicate length c, decide (d = c) = true := fun d hd ↦
    decide_eq_true (List.eq_of_mem_replicate hd)
  have hend : cs.takeWhile (· = c) = [] := by
    cases cs with
    | nil => rfl
    | cons d cs => exact List.takeWhile_cons_of_neg (by simpa using h)
  rw [List.takeWhile_append_of_pos hrun, hend, List.append_nil]

theorem dropWhile_run (h : cs.head? ≠ some c) (length : Nat) :
    (List.replicate length c ++ cs).dropWhile (· = c) = cs := by
  have happend : (List.replicate length c ++ cs).takeWhile (· = c) ++
      (List.replicate length c ++ cs).dropWhile (· = c) = List.replicate length c ++ cs :=
    List.takeWhile_append_dropWhile
  rw [takeWhile_run h] at happend
  exact List.append_cancel_left happend

/-- A run goes on as long as its letter does. -/
theorem lexemesFrom_run {letter : Char} {length : Nat} (hletter : letter.isAlpha = true)
    (hquote : letter ≠ '\'') (hpos : 0 < length) (hcs : cs.head? ≠ some letter) :
    lexemesFrom false (List.replicate length letter ++ cs) =
      .run letter length :: lexemesFrom false cs := by
  obtain ⟨k, rfl⟩ := Nat.exists_eq_succ_of_ne_zero (Nat.ne_of_gt hpos)
  rw [List.replicate_succ, List.cons_append, lexemesFrom_letter hletter hquote,
    takeWhile_run hcs, dropWhile_run hcs, List.length_replicate]

theorem ne_quote_of_isAlpha (h : c.isAlpha = true) : c ≠ '\'' := by
  rintro rfl
  cases h

/-- Quoted text that is not empty does not start with its closing quote. -/
theorem append_ne_quote_cons (hne : text ≠ []) (htext : '\'' ∉ text) (after rest : List Char) :
    text ++ after ≠ '\'' :: rest := by
  intro heq
  cases text with
  | nil => exact hne rfl
  | cons c text => exact htext ((List.cons.inj heq).1 ▸ List.mem_cons_self)

theorem lexemesFrom_quoted (h : '\'' ∉ text) (cs : List Char) :
    lexemesFrom true (text ++ '\'' :: cs) = text.map .literal ++ lexemesFrom false cs := by
  induction text with
  | nil => exact lexemesFrom_true_quote cs
  | cons c text ih =>
    have hquote : c ≠ '\'' := fun heq ↦ h (heq ▸ List.mem_cons_self)
    have htext : '\'' ∉ text := fun hmem ↦ h (List.mem_cons_of_mem c hmem)
    rw [List.cons_append, lexemesFrom_true_of_ne hquote, ih htext]
    rfl

theorem takeWhile_append_singleton {p : Char → Bool} (h : p c = false) (cs : List Char) :
    (cs ++ [c]).takeWhile p = cs.takeWhile p := by
  induction cs with
  | nil => exact List.takeWhile_cons_of_neg (ne_true_of_eq_false h)
  | cons d cs ih =>
    rw [List.cons_append, List.takeWhile_cons, List.takeWhile_cons, ih]

theorem dropWhile_append_singleton {p : Char → Bool} (h : p c = false) (cs : List Char) :
    (cs ++ [c]).dropWhile p = cs.dropWhile p ++ [c] := by
  induction cs with
  | nil =>
    rw [List.nil_append, List.dropWhile_cons_of_neg (ne_true_of_eq_false h)]
    rfl
  | cons d cs ih =>
    rw [List.cons_append, List.dropWhile_cons, List.dropWhile_cons, ih]
    split <;> rfl

/-- A last character that stands for itself is cut off. -/
theorem lexemesFrom_append_plain (hletter : c.isAlpha = false) (hquote : c ≠ '\'')
    (quoted : Bool) (cs : List Char) :
    lexemesFrom quoted (cs ++ [c]) = lexemesFrom quoted cs ++ [.literal c] := by
  induction quoted, cs using lexemesFrom.induct with
  | case1 quoted =>
    rw [List.nil_append, lexemesFrom_plain hletter hquote, lexemesFrom_nil, List.nil_append]
  | case2 rest ih => rw [List.cons_append, lexemesFrom_true_quote, lexemesFrom_true_quote, ih]
  | case3 d rest hd ih =>
    rw [List.cons_append, lexemesFrom_true_of_ne hd, lexemesFrom_true_of_ne hd, ih,
      List.cons_append]
  | case4 quoted hquoted rest ih =>
    obtain rfl : quoted = false := Bool.eq_false_iff.mpr hquoted
    rw [List.cons_append, List.cons_append, lexemesFrom_false_quote_quote,
      lexemesFrom_false_quote_quote, ih, List.cons_append]
  | case5 quoted hquoted rest hrest ih =>
    obtain rfl : quoted = false := Bool.eq_false_iff.mpr hquoted
    have happend : ∀ tail, rest ++ [c] ≠ '\'' :: tail := by
      intro tail heq
      cases rest with
      | nil => exact hquote (List.cons.inj heq).1
      | cons d rest => exact hrest rest (by rw [(List.cons.inj heq).1])
    rw [List.cons_append, lexemesFrom_false_quote happend, lexemesFrom_false_quote hrest, ih]
  | case6 quoted letter rest hquoted hne hrun ih =>
    obtain rfl : quoted = false := Bool.eq_false_iff.mpr hquoted
    have hother : decide (c = letter) = false := by
      refine decide_eq_false ?_
      rintro rfl
      rw [hletter] at hrun
      cases hrun
    rw [List.cons_append, lexemesFrom_letter hrun hne, lexemesFrom_letter hrun hne,
      takeWhile_append_singleton hother, dropWhile_append_singleton hother, ih, List.cons_append]
  | case7 quoted d rest hquoted hne hplain ih =>
    obtain rfl : quoted = false := Bool.eq_false_iff.mpr hquoted
    have hd : d.isAlpha = false := Bool.eq_false_iff.mpr hplain
    rw [List.cons_append, lexemesFrom_plain hd hne, lexemesFrom_plain hd hne, ih, List.cons_append]

end Cutting

/-! ## Blank ends -/

theorem toNat_of_isAlpha {c : Char} (h : c.isAlpha = true) :
    65 ≤ c.toNat ∧ c.toNat ≤ 90 ∨ 97 ≤ c.toNat ∧ c.toNat ≤ 122 := by
  have hcase : (c.isUpper || c.isLower) = true := h
  rwa [Bool.or_eq_true, Text.isUpper_iff, Text.isLower_iff] at hcase

theorem isBlankChar_of_isAlpha {c : Char} (h : c.isAlpha = true) :
    Text.isBlankChar c = false := by
  have hrange := toNat_of_isAlpha h
  simp only [Text.isBlankChar, Bool.or_eq_false_iff, Bool.and_eq_false_iff,
    decide_eq_false_iff_not, beq_eq_false_iff_ne]
  omega

theorem isAlpha_of_isBlankChar {c : Char} (h : Text.isBlankChar c = true) :
    c.isAlpha = false := by
  rw [← Bool.not_eq_true]
  intro hletter
  rw [isBlankChar_of_isAlpha hletter] at h
  cases h

theorem ne_quote_of_isBlankChar {c : Char} (h : Text.isBlankChar c = true) : c ≠ '\'' := by
  rintro rfl
  exact absurd h (by decide)

theorem lexemesFrom_trimStart (cs : List Char) :
    ∃ before : List Char, (∀ c ∈ before, Text.isBlankChar c = true) ∧
      lexemesFrom false cs = before.map .literal ++ lexemesFrom false (Text.trimStart cs) := by
  induction cs with
  | nil => exact ⟨[], nofun, rfl⟩
  | cons c cs ih =>
    cases hc : Text.isBlankChar c with
    | true =>
      obtain ⟨before, hbefore, heq⟩ := ih
      refine ⟨c :: before, List.forall_mem_cons.mpr ⟨hc, hbefore⟩, ?_⟩
      rw [lexemesFrom_plain (isAlpha_of_isBlankChar hc) (ne_quote_of_isBlankChar hc), heq,
        Text.trimStart_cons_of_blank hc]
      rfl
    | false =>
      refine ⟨[], nofun, ?_⟩
      rw [Text.trimStart_cons_of_not_blank hc]
      rfl

theorem lexemesFrom_trimEnd (cs : List Char) :
    ∃ after : List Char, (∀ c ∈ after, Text.isBlankChar c = true) ∧
      lexemesFrom false cs = lexemesFrom false (Text.trimEnd cs) ++ after.map .literal := by
  induction cs using List.reverseRecOn with
  | nil => exact ⟨[], nofun, (List.append_nil _).symm⟩
  | append_singleton cs c ih =>
    cases hc : Text.isBlankChar c with
    | true =>
      obtain ⟨after, hafter, heq⟩ := ih
      refine ⟨after ++ [c], List.forall_mem_append.mpr ⟨hafter, by simpa using hc⟩, ?_⟩
      rw [lexemesFrom_append_plain (isAlpha_of_isBlankChar hc) (ne_quote_of_isBlankChar hc), heq,
        Text.trimEnd_concat_of_blank hc, List.map_append, List.append_assoc]
      rfl
    | false =>
      refine ⟨[], nofun, ?_⟩
      rw [Text.trimEnd_concat_of_not_blank hc]
      exact (List.append_nil _).symm

/-- The blank ends of a pattern are literals. -/
theorem exists_lexemes_trimChars (cs : List Char) :
    ∃ before after : List Char, (∀ c ∈ before ++ after, Text.isBlankChar c = true) ∧
      lexemes cs = before.map .literal ++ lexemes (Text.trimChars cs) ++ after.map .literal := by
  obtain ⟨before, hbefore, hstart⟩ := lexemesFrom_trimStart cs
  obtain ⟨after, hafter, hend⟩ := lexemesFrom_trimEnd (Text.trimStart cs)
  refine ⟨before, after, List.forall_mem_append.mpr ⟨hbefore, hafter⟩, ?_⟩
  rw [lexemes, hstart, hend, ← Text.trimChars_eq, List.append_assoc]
  rfl

/-! ## Layouts -/

namespace Piece

theorem isAlpha_of_mem_fieldLetters {letter : Char} (h : letter ∈ fieldLetters) :
    letter.isAlpha = true ∧ letter ≠ '\'' := by
  have hall : fieldLetters.all (fun letter ↦ letter.isAlpha && letter != '\'') = true := rfl
  simpa using List.all_eq_true.mp hall letter h

/-- A piece that does not run together with a run does not start with its letter. -/
theorem ne_of_apart {letter c : Char} {length : Nat} {piece : Piece} (hpiece : piece.IsProper)
    (hletter : letter ∈ fieldLetters) (hapart : (run letter length).Apart piece)
    {rest : List Char} (hc : c ∈ (piece.chars ++ rest).head?) : c ≠ letter := by
  cases piece with
  | run other n =>
    obtain ⟨k, rfl⟩ := Nat.exists_eq_succ_of_ne_zero (Nat.ne_of_gt hpiece.2.1)
    obtain rfl : other = c := Option.some.inj hc
    exact hapart.symm
  | plain d =>
    obtain rfl : d = c := Option.some.inj hc
    rintro rfl
    have hd : d.isAlpha = false := hpiece.1
    rw [(isAlpha_of_mem_fieldLetters hletter).1] at hd
    cases hd
  | quoted text =>
    obtain rfl : '\'' = c := Option.some.inj hc
    exact (isAlpha_of_mem_fieldLetters hletter).2.symm

end Piece

/-- Cutting the text of a layout gives what its pieces are cut into. -/
theorem lexemes_flatMap_chars {pieces : List Piece} (hproper : ∀ piece ∈ pieces, piece.IsProper)
    (hapart : pieces.IsChain Piece.Apart) :
    lexemes (pieces.flatMap Piece.chars) = pieces.flatMap Piece.lexemes := by
  induction pieces with
  | nil => exact lexemesFrom_nil false
  | cons piece pieces ih =>
    have htail : lexemesFrom false (pieces.flatMap Piece.chars) = pieces.flatMap Piece.lexemes :=
      ih (fun other hother ↦ hproper other (List.mem_cons_of_mem piece hother)) hapart.tail
    have hpiece := hproper piece List.mem_cons_self
    rw [List.flatMap_cons, List.flatMap_cons, ← htail, lexemes]
    cases piece with
    | run letter length =>
      obtain ⟨hmem, hpos, -⟩ := hpiece
      obtain ⟨hletter, hquote⟩ := Piece.isAlpha_of_mem_fieldLetters hmem
      refine lexemesFrom_run hletter hquote hpos fun hhead ↦ ?_
      cases pieces with
      | nil => cases hhead
      | cons next pieces =>
        have hnext := hproper next (List.mem_cons_of_mem _ List.mem_cons_self)
        exact Piece.ne_of_apart hnext hmem (List.isChain_cons_cons.mp hapart).1 hhead rfl
    | plain c => exact lexemesFrom_plain hpiece.1 hpiece.2 false _
    | quoted text =>
      have hopen := append_ne_quote_cons hpiece.1 hpiece.2 ('\'' :: pieces.flatMap Piece.chars)
      calc
        lexemesFrom false (('\'' :: text ++ ['\'']) ++ pieces.flatMap Piece.chars) =
            lexemesFrom false ('\'' :: (text ++ '\'' :: pieces.flatMap Piece.chars)) := by simp
        _ = lexemesFrom true (text ++ '\'' :: pieces.flatMap Piece.chars) :=
          lexemesFrom_false_quote hopen
        _ = text.map .literal ++ lexemesFrom false (pieces.flatMap Piece.chars) :=
          lexemesFrom_quoted hpiece.2 _

end MeetingCalendar.Pattern
