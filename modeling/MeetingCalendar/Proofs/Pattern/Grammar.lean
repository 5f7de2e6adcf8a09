import MeetingCalendar.Proofs.Pattern.Layout

/-!
# The grammar of patterns

What a pattern consists of, told without the way in which it is cut: runs of a letter that are as long
as they can be, characters that stand for themselves, pairs of quotes, and quoted texts, the last of
which need not be closed.  The grammar reads every text in exactly one way, and cutting a text finds
this reading.
-/

namespace MeetingCalendar.Pattern

/-- The ways of reading a text as a pattern. -/
inductive Reads : List Char → List Lexeme → Prop
  | nil : Reads [] []
  /-- A run, which no further letter of its own follows. -/
  | run {letter : Char} {length : Nat} {rest : List Char} {lexemes : List Lexeme}
      (hletter : letter.isAlpha = true) (hlength : 0 < length) (hrest : rest.head? ≠ some letter)
      (h : Reads rest lexemes) :
      Reads (List.replicate length letter ++ rest) (.run letter length :: lexemes)
  /-- A character that stands for itself. -/
  | plain {c : Char} {rest : List Char} {lexemes : List Lexeme} (hletter : c.isAlpha = false)
      (hquote : c ≠ '\'') (h : Reads rest lexemes) : Reads (c :: rest) (.literal c :: lexemes)
  /-- Two quotes, which stand for one. -/
  | pair {rest : List Char} {lexemes : List Lexeme} (h : Reads rest lexemes) :
      Reads ('\'' :: '\'' :: rest) (.literal '\'' :: lexemes)
  /-- Quoted text, up to the next quote. -/
  | quoted {text rest : List Char} {lexemes : List Lexeme} (hne : text ≠ []) (htext : '\'' ∉ text)
      (h : Reads rest lexemes) :
      Reads ('\'' :: (text ++ '\'' :: rest)) (text.map .literal ++ lexemes)
  /-- Quoted text, up to the end. -/
  | unclosed {text : List Char} (htext : '\'' ∉ text) :
      Reads ('\'' :: text) (text.map .literal)

section Cutting

variable {c : Char} {text : List Char}

theorem lexemesFrom_unclosed (h : '\'' ∉ text) : lexemesFrom true text = text.map .literal := by
  induction text with
  | nil => exact lexemesFrom_nil true
  | cons c text ih =>
    rw [List.mem_cons, not_or] at h
    rw [lexemesFrom_true_of_ne (Ne.symm h.1), ih h.2]
    rfl

/-- A text without a quote has none at its front. -/
theorem ne_quote_cons_of_not_mem (h : '\'' ∉ text) (rest : List Char) : text ≠ '\'' :: rest := by
  rintro rfl
  exact h List.mem_cons_self

/-- A letter in front starts a run, which ends where another character comes. -/
theorem exists_run (c : Char) (cs : List Char) :
    ∃ length rest, 0 < length ∧ c :: cs = List.replicate length c ++ rest ∧ rest.head? ≠ some c := by
  have hrun : cs.takeWhile (· = c) = List.replicate (cs.takeWhile (· = c)).length c := by
    apply List.eq_replicate_of_mem
    intro d hd
    simpa using List.mem_takeWhile_imp hd
  refine ⟨(cs.takeWhile (· = c)).length + 1, cs.dropWhile (· = c), Nat.succ_pos _, ?_, ?_⟩
  · rw [List.replicate_succ, ← hrun, List.cons_append, List.takeWhile_append_dropWhile]
  · intro hhead
    have hne := List.head?_dropWhile_not (· = c) cs
    rw [hhead] at hne
    simp at hne

end Cutting

variable {cs : List Char} {pieces : List Lexeme}

/-- Cutting finds every reading. -/
theorem Reads.lexemes_eq (h : Reads cs pieces) : lexemes cs = pieces := by
  rw [lexemes]
  induction h with
  | nil => exact lexemesFrom_nil false
  | run hletter hlength hrest _ ih =>
    rw [lexemesFrom_run hletter (ne_quote_of_isAlpha hletter) hlength hrest, ih]
  | plain hletter hquote _ ih => rw [lexemesFrom_plain hletter hquote, ih]
  | pair _ ih => rw [lexemesFrom_false_quote_quote, ih]
  | quoted hne htext _ ih =>
    rw [lexemesFrom_false_quote (append_ne_quote_cons hne htext _), lexemesFrom_quoted htext, ih]
  | unclosed htext =>
    rw [lexemesFrom_false_quote (ne_quote_cons_of_not_mem htext), lexemesFrom_unclosed htext]

/-- Every text has a reading.  The induction is on its length, since a run or a quoted text takes
several characters. -/
theorem exists_reads (cs : List Char) : ∃ pieces, Reads cs pieces := by
  induction hn : cs.length using Nat.strong_induction_on generalizing cs with
  | _ n ih =>
    subst hn
    cases cs with
    | nil => exact ⟨[], .nil⟩
    | cons c rest =>
      by_cases hquote : c = '\''
      · subst hquote
        by_cases hclosed : '\'' ∈ rest
        · obtain ⟨text, after, rfl, htext⟩ := List.eq_append_cons_of_mem hclosed
          have hlength : after.length < ('\'' :: (text ++ '\'' :: after)).length := by
            simp only [List.length_cons, List.length_append]
            omega
          obtain ⟨pieces, hpieces⟩ := ih after.length hlength after rfl
          cases text with
          | nil => exact ⟨_, .pair hpieces⟩
          | cons d text => exact ⟨_, .quoted (List.cons_ne_nil d text) htext hpieces⟩
        · exact ⟨_, .unclosed hclosed⟩
      · cases hletter : c.isAlpha with
        | false =>
          obtain ⟨pieces, hpieces⟩ := ih rest.length (Nat.lt_succ_self _) rest rfl
          exact ⟨_, .plain hletter hquote hpieces⟩
        | true =>
          obtain ⟨length, after, hlength, hrest, hafter⟩ := exists_run c rest
          have hshort : after.length < (c :: rest).length := by
            rw [hrest, List.length_append, List.length_replicate]
            omega
          obtain ⟨pieces, hpieces⟩ := ih after.length hshort after rfl
          rw [hrest]
          exact ⟨_, .run hletter hlength hafter hpieces⟩

/-- Every text is read in exactly one way. -/
theorem reads_iff : Reads cs pieces ↔ pieces = lexemes cs := by
  constructor
  · intro h
    exact h.lexemes_eq.symm
  · rintro rfl
    obtain ⟨pieces, hpieces⟩ := exists_reads cs
    rw [hpieces.lexemes_eq]
    exact hpieces

end MeetingCalendar.Pattern
