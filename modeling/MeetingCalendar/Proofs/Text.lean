import Mathlib.Algebra.Group.Nat.Defs
import Mathlib.Data.List.DropRight
import Mathlib.Data.List.TakeWhile
import MeetingCalendar.Text.Blank
import MeetingCalendar.Text.Integer

/-!
# Text written and read back

Decimal digits stand for the number that they were written for, and pieces that do not hold the
separator are what cutting their joined text gives.  Trimming a text drops the blanks around it and
nothing else, and there is one way to cut a text at its first separator.  These are the facts about
text on which the readers and the round trips of larger formats rest.
-/

namespace MeetingCalendar.Text

/-! ## Numbers -/

/-- The digits to base ten are decimal digits. -/
theorem isDigit_of_mem_toDigits (n : Nat) : ∀ c ∈ Nat.toDigits 10 n, c.isDigit = true :=
  fun _ ↦ Nat.isDigit_of_mem_toDigits (by decide) (by decide)

theorem readDigits?_toDigits (n : Nat) : readDigits? (Nat.toDigits 10 n) = some n := by
  unfold readDigits?
  rw [if_neg, Nat.ofDigitChars_ten_toDigits]
  simpa [Nat.toDigits_ne_nil] using isDigit_of_mem_toDigits n

/-- Digits have no sign in front. -/
theorem readUnsigned?_of_isDigit {cs : List Char} (h : ∀ c ∈ cs, c.isDigit = true) :
    readUnsigned? cs = readDigits? cs := by
  unfold readUnsigned?
  split
  · exact absurd (h '+' List.mem_cons_self) (by decide)
  · rfl

theorem readSigned?_of_isDigit {cs : List Char} (h : ∀ c ∈ cs, c.isDigit = true) :
    readSigned? cs = (readDigits? cs).map Int.ofNat := by
  unfold readSigned?
  split
  · exact absurd (h '-' List.mem_cons_self) (by decide)
  · rw [readUnsigned?_of_isDigit h]

theorem readUnsignedUpTo?_toDigits {n max : Nat} (h : n ≤ max) :
    readUnsignedUpTo? max (Nat.toDigits 10 n) = some n := by
  rw [readUnsignedUpTo?, readUnsigned?_of_isDigit (isDigit_of_mem_toDigits n), readDigits?_toDigits]
  simpa using h

theorem readSigned?_integerChars (n : Int) : readSigned? (integerChars n) = some n := by
  unfold integerChars
  split
  · next hneg =>
    have hvalue : -(n.natAbs : Int) = n := by omega
    rw [readSigned?, readDigits?_toDigits]
    exact congrArg some hvalue
  · next hnonneg =>
    have hvalue : Int.ofNat n.natAbs = n := Int.natAbs_of_nonneg (Int.not_lt.mp hnonneg)
    rw [readSigned?_of_isDigit (isDigit_of_mem_toDigits _), readDigits?_toDigits, Option.map_some,
      hvalue]

theorem mem_integerChars {n : Int} {c : Char} (h : c ∈ integerChars n) :
    c = '-' ∨ c.isDigit = true := by
  unfold integerChars at h
  split at h
  · exact (List.mem_cons.mp h).imp_right (isDigit_of_mem_toDigits _ c)
  · exact .inr (isDigit_of_mem_toDigits _ c h)

theorem integerChars_ne_nil (n : Int) : integerChars n ≠ [] := by
  unfold integerChars
  split
  · exact List.cons_ne_nil _ _
  · exact Nat.toDigits_ne_nil

theorem integerChars_natCast (n : Nat) : integerChars n = Nat.toDigits 10 n :=
  if_neg (Int.not_lt.mpr (Int.natCast_nonneg n))

theorem toList_toString (n : Int) : (toString n).toList = integerChars n := by
  cases n with
  | ofNat n =>
    change n.repr.toList = _
    rw [Nat.toList_repr, Int.ofNat_eq_natCast, integerChars_natCast]
  | negSucc n =>
    change ("-" ++ n.succ.repr).toList = _
    rw [String.toList_append, Nat.toList_repr, integerChars, if_pos (Int.negSucc_lt_zero n)]
    rfl

theorem readSignedWithin?_integerChars {n min max : Int} (hmin : min ≤ n) (hmax : n ≤ max) :
    readSignedWithin? min max (integerChars n) = some n := by
  rw [readSignedWithin?, readSigned?_integerChars]
  simp [hmin, hmax]

/-- A number that fits has as many digits as it is given. -/
theorem length_paddedDigits {width n : Nat} (hpos : 0 < width) (h : n < 10 ^ width) :
    (paddedDigits width n).length = width := by
  rw [paddedDigits, List.length_leftpad]
  exact Nat.max_eq_left ((Nat.length_toDigits_le_iff (by decide) hpos).mpr h)

theorem isDigit_of_mem_paddedDigits (width n : Nat) :
    ∀ c ∈ paddedDigits width n, c.isDigit = true := by
  intro c hc
  rcases List.mem_append.mp hc with hc | hc
  · rw [List.eq_of_mem_replicate hc]
    rfl
  · exact isDigit_of_mem_toDigits n c hc

theorem paddedDigits_ne_nil (width n : Nat) : paddedDigits width n ≠ [] :=
  List.append_ne_nil_of_right_ne_nil _ Nat.toDigits_ne_nil

/-- Zeros in front do not change the value. -/
theorem ofDigitChars_paddedDigits (width n : Nat) :
    Nat.ofDigitChars 10 (paddedDigits width n) 0 = n := by
  rw [paddedDigits, List.leftpad, Nat.ofDigitChars_append, Nat.ofDigitChars_replicate_zero, Nat.mul_zero,
    Nat.ofDigitChars_ten_toDigits]

/-! ## Pieces -/

theorem mem_intercalate {separator c : Char} {pieces : List (List Char)}
    (h : c ∈ [separator].intercalate pieces) : c = separator ∨ ∃ piece ∈ pieces, c ∈ piece := by
  induction pieces with
  | nil => cases h
  | cons piece pieces ih =>
    cases pieces with
    | nil => exact .inr ⟨piece, List.mem_cons_self, by simpa using h⟩
    | cons next pieces =>
      rw [List.intercalate_cons_cons, List.mem_append, List.mem_append] at h
      rcases h with (h | h) | h
      · exact .inr ⟨piece, List.mem_cons_self, h⟩
      · exact .inl (List.mem_singleton.mp h)
      · apply (ih h).imp_right
        intro ⟨piece', hpiece, hc⟩
        exact ⟨piece', List.mem_cons_of_mem piece hpiece, hc⟩

/-- A joined text starts with its first piece. -/
theorem exists_intercalate_cons_eq (separator : Char) (piece : List Char)
    (pieces : List (List Char)) :
    ∃ rest, [separator].intercalate (piece :: pieces) = piece ++ rest := by
  cases pieces with
  | nil => exact ⟨[], by simp⟩
  | cons next pieces =>
    exact ⟨_, by rw [List.intercalate_cons_cons, List.append_assoc]⟩

/-- What stands in front of the first separator is in the first piece. -/
theorem exists_splitOn_append_eq {separator : Char} {front : List Char} (h : separator ∉ front)
    (cs : List Char) :
    ∃ piece pieces, (front ++ cs).splitOn separator = (front ++ piece) :: pieces := by
  induction front with
  | nil => exact List.exists_cons_of_ne_nil (List.splitOn_ne_nil separator cs)
  | cons c front ih =>
    obtain ⟨piece, pieces, hpieces⟩ := ih fun hmem ↦ h (List.mem_cons_of_mem c hmem)
    have hne : c ≠ separator := fun heq ↦ h (heq ▸ List.mem_cons_self)
    refine ⟨piece, pieces, ?_⟩
    rw [List.cons_append, List.splitOn_cons_eq_if_modifyHead, if_neg (by simpa using hne), hpieces]
    rfl

/-! ## Blank ends -/

theorem toNat_of_isDigit {c : Char} (h : c.isDigit = true) : 48 ≤ c.toNat ∧ c.toNat ≤ 57 := by
  simpa [Char.isDigit, UInt32.le_iff_toNat_le] using h

theorem isUpper_iff {c : Char} : c.isUpper = true ↔ 65 ≤ c.toNat ∧ c.toNat ≤ 90 := by
  change decide (65 ≤ c.val ∧ c.val ≤ 90) = true ↔ _
  rw [decide_eq_true_eq, UInt32.le_iff_toNat_le, UInt32.le_iff_toNat_le]
  rfl

theorem isLower_iff {c : Char} : c.isLower = true ↔ 97 ≤ c.toNat ∧ c.toNat ≤ 122 := by
  change (decide (97 ≤ c.val) && decide (c.val ≤ 122)) = true ↔ _
  rw [Bool.and_eq_true, decide_eq_true_eq, decide_eq_true_eq, UInt32.le_iff_toNat_le,
    UInt32.le_iff_toNat_le]
  rfl

/-- Digits are not blank. -/
theorem isBlankChar_of_isDigit {c : Char} (h : c.isDigit = true) : isBlankChar c = false := by
  obtain ⟨hlow, hhigh⟩ := toNat_of_isDigit h
  simp only [isBlankChar, Bool.or_eq_false_iff, Bool.and_eq_false_iff, decide_eq_false_iff_not,
    beq_eq_false_iff_ne]
  omega

theorem isBlank_eq_false_of_mem {s : String} {c : Char} (hmem : c ∈ s.toList)
    (hc : isBlankChar c = false) : isBlank s = false := by
  rw [isBlank, List.all_eq_false]
  exact ⟨c, hmem, ne_true_of_eq_false hc⟩

theorem isBlankChar_of_mem_integerChars {n : Int} {c : Char} (h : c ∈ integerChars n) :
    isBlankChar c = false := by
  rcases mem_integerChars h with rfl | hdigit
  · decide
  · exact isBlankChar_of_isDigit hdigit

/-- Only blank ends are trimmed. -/
theorem trimChars_of_isBlankChar {cs : List Char} (h : ∀ c ∈ cs, isBlankChar c = false) :
    trimChars cs = cs := by
  have hstart : ∀ ds : List Char, (∀ c ∈ ds, isBlankChar c = false) → trimStart ds = ds := by
    intro ds hds
    rw [trimStart, List.dropWhile_eq_self_iff]
    intro hlength
    rw [hds _ (List.getElem_mem hlength)]
    exact Bool.false_ne_true
  rw [trimChars, hstart cs h, hstart cs.reverse fun c hc ↦ h c (List.mem_reverse.mp hc),
    List.reverse_reverse]

theorem trimChars_integerChars (n : Int) : trimChars (integerChars n) = integerChars n :=
  trimChars_of_isBlankChar fun _ ↦ isBlankChar_of_mem_integerChars

theorem isBlank_toString (n : Int) : isBlank (toString n) = false := by
  obtain ⟨c, hc⟩ := List.exists_mem_of_ne_nil _ (integerChars_ne_nil n)
  refine isBlank_eq_false_of_mem ?_ (isBlankChar_of_mem_integerChars hc)
  rwa [toList_toString]

def trimEnd (cs : List Char) : List Char :=
  cs.rdropWhile isBlankChar

theorem trimChars_eq (cs : List Char) : trimChars cs = trimEnd (trimStart cs) :=
  rfl

theorem trimEnd_cons (c : Char) (cs : List Char) :
    trimEnd (c :: cs) = if isBlankChar c ∧ trimEnd cs = [] then [] else c :: trimEnd cs := by
  simp only [trimEnd, List.rdropWhile, List.reverse_cons, List.dropWhile_append, List.isEmpty_iff,
    List.reverse_eq_nil_iff]
  by_cases hnil : cs.reverse.dropWhile isBlankChar = []
  · cases hblank : isBlankChar c <;> simp [hnil, hblank]
  · simp [hnil]

theorem trimEnd_concat_of_blank {c : Char} (h : isBlankChar c = true) (cs : List Char) :
    trimEnd (cs ++ [c]) = trimEnd cs :=
  List.rdropWhile_concat_pos isBlankChar cs c h

theorem trimEnd_concat_of_not_blank {c : Char} (h : isBlankChar c = false) (cs : List Char) :
    trimEnd (cs ++ [c]) = cs ++ [c] :=
  List.rdropWhile_concat_neg isBlankChar cs c (ne_true_of_eq_false h)

theorem trimEnd_append_of_not_blank {front : List Char} (h : ∀ c ∈ front, isBlankChar c = false)
    (cs : List Char) : trimEnd (front ++ cs) = front ++ trimEnd cs := by
  induction front with
  | nil => rfl
  | cons c front ih =>
    have hc : isBlankChar c = false := h c List.mem_cons_self
    rw [List.cons_append, trimEnd_cons, hc, if_neg (fun h ↦ Bool.false_ne_true h.1),
      ih fun d hd ↦ h d (List.mem_cons_of_mem c hd)]
    rfl

theorem trimStart_cons_of_blank {c : Char} (h : isBlankChar c = true) (cs : List Char) :
    trimStart (c :: cs) = trimStart cs :=
  List.dropWhile_cons_of_pos h

theorem trimStart_trimStart (cs : List Char) : trimStart (trimStart cs) = trimStart cs :=
  List.dropWhile_idempotent isBlankChar cs

theorem trimStart_cons_of_not_blank {c : Char} (h : isBlankChar c = false) (cs : List Char) :
    trimStart (c :: cs) = c :: cs :=
  List.dropWhile_cons_of_neg (ne_true_of_eq_false h)

/-- It does not matter which end is trimmed first. -/
theorem trimStart_trimEnd (cs : List Char) : trimStart (trimEnd cs) = trimEnd (trimStart cs) := by
  induction cs with
  | nil => rfl
  | cons c cs ih =>
    cases hc : isBlankChar c with
    | true =>
      rw [trimStart_cons_of_blank hc, ← ih, trimEnd_cons, hc]
      by_cases hnil : trimEnd cs = []
      · rw [if_pos ⟨rfl, hnil⟩, hnil]
      · rw [if_neg (fun h ↦ hnil h.2), trimStart_cons_of_blank hc]
    | false =>
      rw [trimStart_cons_of_not_blank hc, trimEnd_cons, hc,
        if_neg (fun h ↦ Bool.false_ne_true h.1), trimStart_cons_of_not_blank hc]

theorem trimStart_append_of_not_blank {front : List Char} (hne : front ≠ [])
    (h : ∀ c ∈ front, isBlankChar c = false) (cs : List Char) :
    trimStart (front ++ cs) = front ++ cs := by
  cases front with
  | nil => exact absurd rfl hne
  | cons c front => exact trimStart_cons_of_not_blank (h c List.mem_cons_self) _

/-- The front of a text without its blank end is that of the text. -/
theorem mem_head?_of_trimEnd {c : Char} {cs : List Char} (h : c ∈ (trimEnd cs).head?) :
    c ∈ cs.head? := by
  cases cs with
  | nil => exact h
  | cons d cs =>
    rw [trimEnd_cons] at h
    split at h
    · cases h
    · exact h

theorem trimStart_append_of_blank {before : List Char} (h : ∀ c ∈ before, isBlankChar c = true)
    (cs : List Char) : trimStart (before ++ cs) = trimStart cs :=
  List.dropWhile_append_of_pos h

/-- Blanks around a text do not matter. -/
theorem trimChars_append_blanks {before after : List Char}
    (hbefore : ∀ c ∈ before, isBlankChar c = true) (hafter : ∀ c ∈ after, isBlankChar c = true)
    (cs : List Char) : trimChars (before ++ cs ++ after) = trimChars cs := by
  have hend : trimEnd (cs ++ after) = trimEnd cs := by
    have hreverse : ∀ c ∈ after.reverse, isBlankChar c = true := fun c hc ↦
      hafter c (List.mem_reverse.mp hc)
    rw [trimEnd, List.rdropWhile, List.reverse_append, List.dropWhile_append_of_pos hreverse]
    rfl
  calc
    trimChars (before ++ cs ++ after) = trimEnd (trimStart (before ++ (cs ++ after))) := by
      rw [trimChars_eq, List.append_assoc]
    _ = trimEnd (trimStart (cs ++ after)) := by rw [trimStart_append_of_blank hbefore]
    _ = trimStart (trimEnd cs) := by rw [← trimStart_trimEnd, hend]
    _ = trimChars cs := trimStart_trimEnd cs

/-- A text of which trimming leaves nothing is blank. -/
theorem isBlank_of_trimChars_eq_nil {s : String} (h : trimChars s.toList = []) :
    isBlank s = true := by
  have hrest : ∀ c ∈ trimStart s.toList, isBlankChar c = true := by
    rw [trimChars_eq, trimEnd, List.rdropWhile_eq_nil_iff] at h
    exact h
  have hsplit : s.toList.takeWhile isBlankChar ++ trimStart s.toList = s.toList :=
    List.takeWhile_append_dropWhile
  rw [isBlank, List.all_eq_true]
  intro c hc
  rw [← hsplit] at hc
  rcases List.mem_append.mp hc with hfront | hback
  · exact List.mem_takeWhile_imp hfront
  · exact hrest c hback

/-! ## The first separator -/

section FirstSeparator

variable {separator : Char} {front rest : List Char}

theorem takeWhile_append_separator (h : separator ∉ front) (rest : List Char) :
    (front ++ separator :: rest).takeWhile (· ≠ separator) = front := by
  have hfront : ∀ c ∈ front, decide (c ≠ separator) = true := fun c hc ↦
    decide_eq_true fun heq ↦ h (heq ▸ hc)
  rw [List.takeWhile_append_of_pos hfront]
  simp

theorem dropWhile_append_separator (h : separator ∉ front) (rest : List Char) :
    (front ++ separator :: rest).dropWhile (· ≠ separator) = separator :: rest := by
  have hfront : ∀ c ∈ front, decide (c ≠ separator) = true := fun c hc ↦
    decide_eq_true fun heq ↦ h (heq ▸ hc)
  rw [List.dropWhile_append_of_pos hfront]
  simp

/-- There is one way to cut a text at its first separator. -/
theorem append_separator_inj {front' rest' : List Char} (h : separator ∉ front)
    (h' : separator ∉ front') (heq : front ++ separator :: rest = front' ++ separator :: rest') :
    front = front' ∧ rest = rest' := by
  have hfront : front = front' := by
    calc
      front = (front ++ separator :: rest).takeWhile (· ≠ separator) :=
        (takeWhile_append_separator h rest).symm
      _ = (front' ++ separator :: rest').takeWhile (· ≠ separator) := by rw [heq]
      _ = front' := takeWhile_append_separator h' rest'
  rw [hfront] at heq
  exact ⟨hfront, (List.cons.inj (List.append_cancel_left heq)).2⟩

theorem not_mem_takeWhile (separator : Char) (cs : List Char) :
    separator ∉ cs.takeWhile (· ≠ separator) := by
  intro h
  simpa using List.mem_takeWhile_imp h

theorem dropWhile_eq_nil_iff {cs : List Char} :
    cs.dropWhile (· ≠ separator) = [] ↔ separator ∉ cs := by
  rw [List.dropWhile_eq_nil_iff]
  constructor
  · intro h hmem
    simpa using h separator hmem
  · intro h c hc
    exact decide_eq_true fun heq ↦ h (heq ▸ hc)

/-- What is left of a text from the first separator on. -/
theorem eq_append_of_dropWhile {cs : List Char} {c : Char}
    (h : cs.dropWhile (· ≠ separator) = c :: rest) :
    cs = cs.takeWhile (· ≠ separator) ++ separator :: rest := by
  have hseparator : c = separator := by
    have hne : cs.dropWhile (· ≠ separator) ≠ [] := by
      rw [h]
      exact List.cons_ne_nil c rest
    have hhead := List.head_dropWhile_not (· ≠ separator) hne
    simp only [h, List.head_cons] at hhead
    simpa using hhead
  calc
    cs = cs.takeWhile (· ≠ separator) ++ cs.dropWhile (· ≠ separator) :=
      List.takeWhile_append_dropWhile.symm
    _ = cs.takeWhile (· ≠ separator) ++ separator :: rest := by rw [h, hseparator]

end FirstSeparator

/-! ## Reading off the front -/

/-- Words that differ in their first letters can be read off any text that starts with them. -/
theorem append_inj_of_head? {α : Type} (word : α → List Char) (hne : ∀ a, word a ≠ [])
    (hhead : ∀ a b, (word a).head? = (word b).head? → a = b) {a b : α} {rest rest' : List Char}
    (h : word a ++ rest = word b ++ rest') : a = b ∧ rest = rest' := by
  have hword : a = b := by
    apply hhead
    rw [← List.head?_append_of_ne_nil _ (hne a), h, List.head?_append_of_ne_nil _ (hne b)]
  subst hword
  exact ⟨rfl, List.append_cancel_left h⟩

/-- Pieces that do not hold the separator can be read off the whole. -/
theorem intercalate_inj {separator : Char} {gap : List Char} {pieces pieces' : List (List Char)}
    (hpieces : ∀ piece ∈ pieces, separator ∉ piece)
    (hpieces' : ∀ piece ∈ pieces', separator ∉ piece) (hne : pieces ≠ []) (hne' : pieces' ≠ [])
    (h : (separator :: gap).intercalate pieces = (separator :: gap).intercalate pieces') :
    pieces = pieces' := by
  have hsingle {piece other : List Char} {rest : List (List Char)} (hpiece : separator ∉ piece)
      (heq : piece = (separator :: gap).intercalate (other :: rest)) : rest = [] := by
    cases rest with
    | nil => rfl
    | cons next rest =>
      rw [List.intercalate_cons_cons] at heq
      exact absurd (heq ▸ by simp) hpiece
  induction pieces generalizing pieces' with
  | nil => exact absurd rfl hne
  | cons piece pieces ih =>
    obtain ⟨piece', pieces', rfl⟩ := List.exists_cons_of_ne_nil hne'
    rw [List.forall_mem_cons] at hpieces hpieces'
    cases pieces with
    | nil =>
      rw [List.intercalate_singleton] at h
      obtain rfl := hsingle hpieces.1 h
      rw [h, List.intercalate_singleton]
    | cons next pieces =>
      cases pieces' with
      | nil =>
        rw [List.intercalate_singleton] at h
        cases hsingle hpieces'.1 h.symm
      | cons next' pieces' =>
        rw [List.intercalate_cons_cons, List.intercalate_cons_cons, List.append_assoc,
          List.append_assoc] at h
        obtain ⟨hpiece, hrest⟩ := append_separator_inj hpieces.1 hpieces'.1 h
        rw [hpiece, ih hpieces.2 hpieces'.2 (List.cons_ne_nil _ _) (List.cons_ne_nil _ _)
          (List.append_cancel_left hrest)]

end MeetingCalendar.Text
