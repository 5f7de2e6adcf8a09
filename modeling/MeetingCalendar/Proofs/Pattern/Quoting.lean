import MeetingCalendar.Proofs.Except
import MeetingCalendar.Proofs.Pattern.Layout

/-!
# Quoted texts in patterns

The way to have any text in a pattern is to set it between quotes and to double the quotes in it.
Such a pattern always names no field at all, but what it stands for need not be the text: inside
quoted text a quote ends it, and only the next one is looked at as half of a pair.  So of the quotes
in a row between two other characters one is lost, and a text of quotes alone gains one.  Quotes at
the two ends of a text are safe.
-/

namespace MeetingCalendar.Pattern

/-- Writes a mark twice wherever it occurs. -/
def doubled (mark : Char) (cs : List Char) : List Char :=
  cs.flatMap fun c ↦ if c = mark then [mark, mark] else [c]

/-- A text between quotes, with the quotes in it doubled. -/
def quote (text : String) : String :=
  String.ofList ('\'' :: (doubled '\'' text.toList ++ ['\'']))

/-- What quoted text stands for, from behind the character `before` on: a quote behind another
character is lost, and one in front of the closing quote comes twice. -/
def unquoted (before : Char) : List Char → List Char
  | [] => if before = '\'' then ['\''] else []
  | c :: cs => if c = '\'' ∧ before ≠ '\'' then unquoted c cs else c :: unquoted c cs

/-! ## Doubled marks -/

section Doubled

variable {mark c : Char} {cs cs' : List Char}

theorem doubled_cons_self (mark : Char) (cs : List Char) :
    doubled mark (mark :: cs) = mark :: mark :: doubled mark cs := by
  rw [doubled, List.flatMap_cons, if_pos rfl]
  rfl

theorem doubled_cons_of_ne (h : c ≠ mark) (cs : List Char) :
    doubled mark (c :: cs) = c :: doubled mark cs := by
  rw [doubled, List.flatMap_cons, if_neg h]
  rfl

theorem head?_doubled (mark : Char) (cs : List Char) : (doubled mark cs).head? = cs.head? := by
  cases cs with
  | nil => rfl
  | cons c cs =>
    by_cases h : c = mark
    · rw [h, doubled_cons_self, List.head?_cons, List.head?_cons]
    · rw [doubled_cons_of_ne h, List.head?_cons, List.head?_cons]

/-- Doubling a mark keeps texts apart. -/
theorem doubled_inj : doubled mark cs = doubled mark cs' ↔ cs = cs' := by
  refine ⟨fun h ↦ ?_, congrArg _⟩
  have hhead : cs.head? = cs'.head? := by rw [← head?_doubled mark, h, head?_doubled]
  induction cs generalizing cs' with
  | nil => exact (List.head?_eq_none_iff.mp hhead.symm).symm
  | cons c cs ih =>
    obtain ⟨cs', rfl⟩ := List.head?_eq_some_iff.mp hhead.symm
    have htail : doubled mark cs = doubled mark cs' := by
      by_cases hc : c = mark
      · rw [hc, doubled_cons_self, doubled_cons_self] at h
        exact (List.cons.inj (List.cons.inj h).2).2
      · rw [doubled_cons_of_ne hc, doubled_cons_of_ne hc] at h
        exact (List.cons.inj h).2
    rw [ih htail (by rw [← head?_doubled mark, htail, head?_doubled])]

end Doubled

/-! ## What a quoted text stands for -/

section Unquoted

variable {before c : Char} {cs text : List Char}

theorem unquoted_quote (cs : List Char) :
    unquoted '\'' ('\'' :: cs) = '\'' :: unquoted '\'' cs := by
  rw [unquoted, if_neg (fun h ↦ h.2 rfl)]

theorem unquoted_quote_of_ne (h : before ≠ '\'') (cs : List Char) :
    unquoted before ('\'' :: cs) = unquoted '\'' cs := by
  rw [unquoted, if_pos ⟨rfl, h⟩]

theorem unquoted_of_ne (h : c ≠ '\'') (before : Char) (cs : List Char) :
    unquoted before (c :: cs) = c :: unquoted c cs := by
  rw [unquoted, if_neg (fun hc ↦ h hc.1)]

/-- Cutting the doubled quotes and the closing one.  Between two quotes of the text the pattern is
outside quoted text, with one quote still to be paired. -/
theorem lexemesFrom_doubled (cs : List Char) :
    lexemesFrom false ('\'' :: (doubled '\'' cs ++ ['\''])) = (unquoted '\'' cs).map .literal ∧
      ∀ before, before ≠ '\'' →
        lexemesFrom true (doubled '\'' cs ++ ['\'']) = (unquoted before cs).map .literal := by
  induction cs with
  | nil =>
    refine ⟨?_, fun before hbefore ↦ ?_⟩
    · change lexemesFrom false ['\'', '\''] = _
      rw [lexemesFrom_false_quote_quote, lexemesFrom_nil]
      rfl
    · change lexemesFrom true ['\''] = _
      rw [lexemesFrom_true_quote, lexemesFrom_nil, unquoted, if_neg hbefore]
      rfl
  | cons c cs ih =>
    obtain ⟨houtside, hinside⟩ := ih
    by_cases hc : c = '\''
    · subst hc
      rw [doubled_cons_self, List.cons_append, List.cons_append]
      refine ⟨?_, fun before hbefore ↦ ?_⟩
      · rw [lexemesFrom_false_quote_quote, houtside, unquoted_quote]
        rfl
      · rw [lexemesFrom_true_quote, houtside, unquoted_quote_of_ne hbefore]
    · have htext : lexemesFrom true (c :: (doubled '\'' cs ++ ['\''])) =
          .literal c :: (unquoted c cs).map .literal := by
        rw [lexemesFrom_true_of_ne hc, hinside c hc]
      have hopen : ∀ rest, c :: (doubled '\'' cs ++ ['\'']) ≠ '\'' :: rest := fun rest heq ↦
        hc (List.cons.inj heq).1
      rw [doubled_cons_of_ne hc, List.cons_append]
      refine ⟨?_, fun before _ ↦ ?_⟩
      · rw [lexemesFrom_false_quote hopen, htext, unquoted_of_ne hc]
        rfl
      · rw [htext, unquoted_of_ne hc]
        rfl

theorem unquoted_replicate_append (n : Nat) (cs : List Char) :
    unquoted '\'' (List.replicate n '\'' ++ cs) = List.replicate n '\'' ++ unquoted '\'' cs := by
  induction n with
  | zero => rfl
  | succ n ih => rw [List.replicate_succ, List.cons_append, unquoted_quote, ih, List.cons_append]

/-- Other characters stay, up to the first quote behind them. -/
theorem unquoted_append_quote (hbefore : before ≠ '\'') (htext : '\'' ∉ text) (cs : List Char) :
    unquoted before (text ++ '\'' :: cs) = text ++ unquoted '\'' cs := by
  induction text generalizing before with
  | nil => exact unquoted_quote_of_ne hbefore cs
  | cons c text ih =>
    rw [List.mem_cons, not_or] at htext
    rw [List.cons_append, unquoted_of_ne (Ne.symm htext.1), ih (Ne.symm htext.1) htext.2,
      List.cons_append]

theorem unquoted_of_not_mem (hbefore : before ≠ '\'') (htext : '\'' ∉ text) :
    unquoted before text = text := by
  induction text generalizing before with
  | nil => exact if_neg hbefore
  | cons c text ih =>
    rw [List.mem_cons, not_or] at htext
    rw [unquoted_of_ne (Ne.symm htext.1), ih (Ne.symm htext.1) htext.2]

/-- Only behind quotes alone does the last quote come twice. -/
theorem eq_quote_of_unquoted (h : unquoted '\'' cs = '\'' :: cs) : ∀ c ∈ cs, c = '\'' := by
  induction cs with
  | nil => exact nofun
  | cons c cs ih =>
    by_cases hc : c = '\''
    · subst hc
      rw [unquoted_quote] at h
      exact List.forall_mem_cons.mpr ⟨rfl, ih (List.cons.inj h).2⟩
    · rw [unquoted_of_ne hc] at h
      exact absurd (List.cons.inj h).1 hc

/-- A text without a quote at its front stands for itself if its quotes are all at its end. -/
theorem unquoted_eq_self_iff_of_ne (hbefore : before ≠ '\'') :
    unquoted before cs = cs ↔
      ∃ inner back, '\'' ∉ inner ∧ cs = inner ++ List.replicate back '\'' := by
  constructor
  · intro h
    have hinner := Text.not_mem_takeWhile '\'' cs
    cases hrest : cs.dropWhile (· ≠ '\'') with
    | nil => exact ⟨cs, 0, Text.dropWhile_eq_nil_iff.mp hrest, (List.append_nil cs).symm⟩
    | cons c rest =>
      have heq := Text.eq_append_of_dropWhile hrest
      rw [heq, unquoted_append_quote hbefore hinner] at h
      have hquotes := eq_quote_of_unquoted (List.append_cancel_left h)
      refine ⟨_, rest.length + 1, hinner, ?_⟩
      rw [List.replicate_succ, ← List.eq_replicate_iff.mpr ⟨rfl, hquotes⟩]
      exact heq
  · rintro ⟨inner, back, hinner, rfl⟩
    cases back with
    | zero => rw [List.replicate_zero, List.append_nil, unquoted_of_not_mem hbefore hinner]
    | succ back =>
      have hquotes := unquoted_replicate_append back []
      rw [List.append_nil] at hquotes
      rw [List.replicate_succ, unquoted_append_quote hbefore hinner, hquotes, ← List.replicate_succ,
        List.replicate_succ']
      rfl

/-- A text stands for itself if it is not of quotes alone and no quote is between two other
characters. -/
theorem unquoted_eq_self_iff :
    unquoted '\'' cs = cs ↔
      ∃ front inner back, inner ≠ [] ∧ '\'' ∉ inner ∧
        cs = List.replicate front '\'' ++ (inner ++ List.replicate back '\'') := by
  constructor
  · intro h
    induction cs with
    | nil => cases h
    | cons c cs ih =>
      by_cases hc : c = '\''
      · subst hc
        rw [unquoted_quote] at h
        obtain ⟨front, inner, back, hne, hinner, heq⟩ := ih (List.cons.inj h).2
        exact ⟨front + 1, inner, back, hne, hinner, congrArg ('\'' :: ·) heq⟩
      · rw [unquoted_of_ne hc] at h
        obtain ⟨inner, back, hinner, heq⟩ := (unquoted_eq_self_iff_of_ne hc).mp (List.cons.inj h).2
        refine ⟨0, c :: inner, back, List.cons_ne_nil c inner, ?_, congrArg (c :: ·) heq⟩
        rw [List.mem_cons, not_or]
        exact ⟨Ne.symm hc, hinner⟩
  · rintro ⟨front, inner, back, hne, hinner, rfl⟩
    cases inner with
    | nil => exact absurd rfl hne
    | cons c inner =>
      rw [List.mem_cons, not_or] at hinner
      have hrest := (unquoted_eq_self_iff_of_ne (Ne.symm hinner.1)).mpr ⟨inner, back, hinner.2, rfl⟩
      rw [unquoted_replicate_append, List.cons_append, unquoted_of_ne (Ne.symm hinner.1), hrest]

end Unquoted

/-! ## Patterns of quoted texts -/

theorem formatChars_map_literal (cs : List Char) :
    formatChars (cs.map .literal) = doubled '%' cs :=
  List.flatMap_map _ _ cs

/-- A quoted text is a pattern of literals alone. -/
theorem tokensOf_quote (text : String) :
    tokensOf (quote text).toList = .ok ((unquoted '\'' text.toList).map .literal) := by
  have hlexemes : lexemes (quote text).toList = (unquoted '\'' text.toList).map .literal := by
    rw [quote, String.toList_ofList]
    exact (lexemesFrom_doubled text.toList).1
  rw [tokensOf, hlexemes, mapM_literal]

theorem formatText_quote_eq (text : String) :
    formatText (quote text) =
      .ok (String.ofList (doubled '%' (unquoted '\'' text.toList))) := by
  rw [formatText, tokensOf_quote, ← formatChars_map_literal]

/-- Every text can be quoted in a pattern, and percent signs in it are doubled, but the pattern
stands for the text itself exactly when the text has characters other than quotes and no quote
stands between two of them. -/
theorem formatText_quote (text : String) :
    formatText (quote text) =
        .ok (String.ofList (doubled '%' (unquoted '\'' text.toList))) ∧
      (formatText (quote text) = .ok (String.ofList (doubled '%' text.toList)) ↔
        ∃ front inner back, inner ≠ [] ∧ '\'' ∉ inner ∧
          text.toList = List.replicate front '\'' ++ (inner ++ List.replicate back '\'')) := by
  have hformat := formatText_quote_eq text
  refine ⟨hformat, ?_⟩
  rw [hformat, ← unquoted_eq_self_iff, Except.ok.injEq, String.ofList_inj, doubled_inj]

/-- The quote in the middle of a word is lost. -/
theorem not_formatText_quote :
    ¬∀ text : String, text ≠ "" →
      formatText (quote text) = .ok (String.ofList (doubled '%' text.toList)) := by
  intro h
  have hclock := h "o'clock" (by decide)
  rw [formatText_quote_eq, Except.ok.injEq, String.ofList_inj, doubled_inj] at hclock
  exact absurd hclock (by decide)

end MeetingCalendar.Pattern
