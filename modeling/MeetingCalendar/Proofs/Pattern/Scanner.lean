import MeetingCalendar.Pattern.Scanner
import MeetingCalendar.Proofs.Pattern.Grammar

/-!
# The rounds of a scanner

What comes out of a scan in the end is what the scanner has written, followed by the format text of
the pattern from its position on.  A round takes one piece of the grammar, goes forward by it and
keeps what comes out; a run without a field in front is what comes out.  So as many rounds as there
are characters are enough, and from the front they give the format text of the pattern.
-/

namespace MeetingCalendar.Pattern

theorem formatChars_append (tokens tokens' : List Token) :
    formatChars (tokens ++ tokens') = formatChars tokens ++ formatChars tokens' :=
  List.flatMap_append

/-- Pieces that have tokens are translated in front of the rest. -/
theorem tokensOf_of_reads {cs rest : List Char} {pieces later : List Lexeme} {tokens : List Token}
    (h : Reads cs (pieces ++ later)) (hlater : Reads rest later)
    (htokens : pieces.mapM Token.ofLexeme = .ok tokens) :
    tokensOf cs = (tokensOf rest).map (tokens ++ ·) := by
  rw [tokensOf, tokensOf, h.lexemes_eq, hlater.lexemes_eq, List.mapM_append, htokens]
  cases later.mapM Token.ofLexeme <;> rfl

namespace Scanner

variable {cs front rest text : List Char} {s : Scanner} {pieces later : List Lexeme}
  {tokens : List Token} {c : Char} {length : Nat}

/-! ## What a round does with the text in front -/

section Rounds

theorem round?_eq_none (h : cs.length ≤ s.position) : s.round? cs = none := by
  rw [round?, List.drop_eq_nil_of_le h]

theorem round?_pair (h : cs.drop s.position = '\'' :: '\'' :: rest) :
    s.round? cs = some (.ok (s.past 2 (formatChars [.literal '\'']))) := by
  rw [round?, h]
  rfl

theorem round?_quote (h : cs.drop s.position = '\'' :: rest) (hopen : rest.head? ≠ some '\'')
    (htext : rest.takeWhile (· ≠ '\'') = text) :
    s.round? cs = some (.ok (s.past (text.length + 2) (formatChars (text.map .literal)))) := by
  rw [round?, h]
  simp only [if_true, if_neg hopen, htext]

theorem round?_plain (h : cs.drop s.position = c :: rest) (hquote : c ≠ '\'')
    (hletter : c.isAlpha = false) :
    s.round? cs = some (.ok (s.past 1 (formatChars [.literal c]))) := by
  have hwritten : Token.formatChars (.literal c) = formatChars [.literal c] :=
    (List.append_nil _).symm
  rw [round?, h]
  simp only [if_neg hquote, hletter, Bool.false_eq_true, if_false, hwritten]

theorem round?_run (h : cs.drop s.position = List.replicate length c ++ rest)
    (hletter : c.isAlpha = true) (hlength : 0 < length) (hrest : rest.head? ≠ some c) :
    s.round? cs = some ((Token.ofLexeme (.run c length)).map fun token ↦
      s.past length (formatChars [token])) := by
  have htake := takeWhile_run hrest length
  obtain ⟨k, rfl⟩ := Nat.exists_eq_succ_of_ne_zero (Nat.ne_of_gt hlength)
  rw [List.replicate_succ, List.cons_append] at h htake
  rw [round?, h, Token.ofLexeme]
  simp only [if_neg (ne_quote_of_isAlpha hletter), hletter, if_true, htake, List.length_cons,
    List.length_replicate]
  cases Field.ofRun? c (k + 1) <;> rfl

end Rounds

/-! ## What comes out in the end -/

/-- What has been written, followed by the format text of what is in front. -/
def result (cs : List Char) (s : Scanner) : Except (List Char) (List Char) :=
  (tokensOf (cs.drop s.position)).map fun tokens ↦ s.written ++ formatChars tokens

theorem result_of_le (h : cs.length ≤ s.position) : s.result cs = .ok s.written := by
  rw [result, List.drop_eq_nil_of_le h, tokensOf, lexemes, lexemesFrom_nil]
  change Except.ok (s.written ++ []) = _
  rw [List.append_nil]

/-- What a round may do: it goes forward and keeps what comes out in the end, or it fails with the
error that comes out. -/
def KeepsResult (cs : List Char) (s : Scanner) : Except (List Char) Scanner → Prop
  | .ok next => s.position < next.position ∧ next.result cs = s.result cs
  | .error run => s.result cs = .error run

theorem keepsResult_past (hlength : 0 < length) (h : Reads (cs.drop s.position) (pieces ++ later))
    (hlater : Reads (cs.drop (s.position + length)) later)
    (htokens : pieces.mapM Token.ofLexeme = .ok tokens) :
    s.KeepsResult cs (.ok (s.past length (formatChars tokens))) := by
  refine ⟨Nat.lt_add_of_pos_right hlength, ?_⟩
  calc
    (s.past length (formatChars tokens)).result cs =
        (tokensOf (cs.drop (s.position + length))).map fun tail ↦
          s.written ++ formatChars tokens ++ formatChars tail := rfl
    _ = ((tokensOf (cs.drop (s.position + length))).map (tokens ++ ·)).map fun all ↦
          s.written ++ formatChars all := by
      cases tokensOf (cs.drop (s.position + length)) with
      | error run => rfl
      | ok tail => simp only [Except.map, formatChars_append, List.append_assoc]
    _ = s.result cs := by rw [← tokensOf_of_reads h hlater htokens, result]

theorem keepsResult_of_run (hlength : 0 < length)
    (h : Reads (cs.drop s.position) (.run c length :: later))
    (hlater : Reads (cs.drop (s.position + length)) later) :
    s.KeepsResult cs ((Token.ofLexeme (.run c length)).map fun token ↦
      s.past length (formatChars [token])) := by
  cases htoken : Token.ofLexeme (.run c length) with
  | error run =>
    change s.result cs = _
    rw [result, tokensOf, h.lexemes_eq, List.mapM_cons, htoken]
    rfl
  | ok token =>
    have htokens : [Lexeme.run c length].mapM Token.ofLexeme = .ok [token] := by
      rw [List.mapM_cons, htoken]
      rfl
    exact keepsResult_past hlength h hlater htokens

/-- There is a round as long as something is in front.  The cases are those of the grammar. -/
theorem exists_round? (hfront : cs.drop s.position = front) (hsome : front ≠ [])
    (h : Reads front pieces) :
    ∃ round, s.round? cs = some round ∧ s.KeepsResult cs round := by
  have hdrop : ∀ count, cs.drop (s.position + count) = front.drop count := by
    intro count
    rw [← hfront, List.drop_drop]
  have hreads := h
  rw [← hfront] at hreads
  cases h with
  | nil => exact absurd rfl hsome
  | @run c length rest later hletter hlength hrest hlater =>
    refine ⟨_, round?_run hfront hletter hlength hrest, ?_⟩
    apply keepsResult_of_run hlength hreads
    rw [hdrop, List.drop_left' List.length_replicate]
    exact hlater
  | @plain c rest later hletter hquote hlater =>
    have hpieces : Reads (cs.drop s.position) ([.literal c] ++ later) := hreads
    refine ⟨_, round?_plain hfront hquote hletter, ?_⟩
    apply keepsResult_past Nat.one_pos hpieces _ rfl
    rw [hdrop]
    exact hlater
  | @pair rest later hlater =>
    have hpieces : Reads (cs.drop s.position) ([.literal '\''] ++ later) := hreads
    refine ⟨_, round?_pair hfront, ?_⟩
    apply keepsResult_past Nat.two_pos hpieces _ rfl
    rw [hdrop]
    exact hlater
  | @quoted text rest later hne htext hlater =>
    have hopen : (text ++ '\'' :: rest).head? ≠ some '\'' := by
      rw [Ne, List.head?_eq_some_iff]
      rintro ⟨after, heq⟩
      exact append_ne_quote_cons hne htext _ after heq
    have htake := Text.takeWhile_append_separator htext rest
    refine ⟨_, round?_quote hfront hopen htake, ?_⟩
    apply keepsResult_past (Nat.succ_pos _) hreads _ (mapM_literal text)
    rw [hdrop, List.drop_succ_cons, List.drop_length_add_append]
    exact hlater
  | @unclosed text htext =>
    have hopen : text.head? ≠ some '\'' := fun hhead ↦ htext (List.mem_of_mem_head? hhead)
    have htake : text.takeWhile (· ≠ '\'') = text := by
      rw [List.takeWhile_eq_self_iff]
      intro c hc
      exact decide_eq_true fun heq ↦ htext (heq ▸ hc)
    have hpieces : Reads (cs.drop s.position) (text.map .literal ++ []) := by
      rw [List.append_nil]
      exact hreads
    refine ⟨_, round?_quote hfront hopen htake, ?_⟩
    apply keepsResult_past (Nat.succ_pos _) hpieces _ (mapM_literal text)
    rw [hdrop, List.drop_succ_cons, List.drop_eq_nil_of_le (Nat.le_succ _)]
    exact .nil

/-- The rounds end when there are as many of them as characters in front, and give the result. -/
theorem scan?_eq_result {rounds : Nat} (h : cs.length ≤ s.position + rounds) :
    scan? cs rounds s = some (s.result cs) := by
  induction rounds generalizing s with
  | zero =>
    have hle : cs.length ≤ s.position := h
    rw [scan?, if_neg (Nat.not_lt.mpr hle), result_of_le hle]
  | succ rounds ih =>
    rcases Nat.lt_or_ge s.position cs.length with hlt | hle
    · have hne : cs.drop s.position ≠ [] := by
        rw [Ne, List.drop_eq_nil_iff]
        exact Nat.not_le_of_gt hlt
      obtain ⟨round, hround, hkeeps⟩ := exists_round? rfl hne (reads_iff.mpr rfl)
      rw [scan?, hround]
      cases round with
      | error run => exact congrArg some (Eq.symm hkeeps)
      | ok next =>
        obtain ⟨hforward, hresult⟩ := hkeeps
        have hnext : cs.length ≤ next.position + rounds := by omega
        exact (ih hnext).trans (congrArg some hresult)
    · rw [scan?, round?_eq_none hle, result_of_le hle]

/-- As many rounds as a pattern has characters give its format text. -/
theorem formatText?_length (pattern : String) :
    formatText? pattern.length pattern = some (formatText pattern) := by
  have hrounds : pattern.toList.length ≤ start.position + pattern.length := by
    rw [String.length_toList]
    exact Nat.le_add_left _ _
  have hresult : start.result pattern.toList = (tokensOf pattern.toList).map formatChars := rfl
  rw [formatText?, scan?_eq_result hrounds, hresult, formatText]
  cases tokensOf pattern.toList <;> rfl

end Scanner

end MeetingCalendar.Pattern
