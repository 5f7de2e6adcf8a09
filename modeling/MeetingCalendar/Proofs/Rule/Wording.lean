import MeetingCalendar.Proofs.Rule.Parts

/-!
# Rules in any wording

A text that names a unit of time, and perhaps an interval, weekdays and the start of the week, may
give these parts in any order.  Reading it gives the rule that the parts are for,
`Rule.parse_partsToText`, and the start of the week is not in it.  The proof follows the layers of
the text: weekday entries between commas, parts between semicolons, and the whole, in which no
property name is found.
-/

namespace MeetingCalendar

theorem Weekday.ofCode?_code (w : Weekday) : ofCode? w.code = some w := by
  cases w <;> rfl

theorem Weekday.length_code (w : Weekday) : w.code.toList.length = 2 := by
  cases w <;> rfl

namespace Rule

/-- A weekday of which an entry says everything: places have 16 bits and are not zero. -/
def Day.Writable (day : Day) : Prop :=
  ∀ place, day.place = some place →
    place ≠ 0 ∧ Text.minInt16 ≤ place ∧ place ≤ Text.maxInt16

/-- What a text says of a rule; all but the unit of time may be left out. -/
structure Wording where
  unit : Unit
  interval : Option Nat
  days : List Day
  weekStart : Option Weekday
  interval_le : ∀ n, interval = some n → n ≤ Text.maxNat16
  writable : ∀ day ∈ days, day.Writable

def Wording.rule (w : Wording) : Rule :=
  ⟨w.unit, w.interval.getD 1, w.days, []⟩

def daysToText (days : List Day) : List Char :=
  [','].intercalate (days.map Day.toChars)

/-- The parts with their values, in one of the orders in which they may stand. -/
def Wording.parts (w : Wording) : List (Part × List Char) :=
  (.frequency, w.unit.keyword.toList) ::
    ((w.interval.map fun n ↦ (Part.interval, Nat.toDigits 10 n)).toList ++
      (if w.days.isEmpty then [] else [(Part.days, daysToText w.days)]) ++
      (w.weekStart.map fun day ↦ (Part.weekStart, day.code.toList)).toList)

def partsToText (parts : List (Part × List Char)) : List Char :=
  [';'].intercalate (parts.map fun p ↦ p.1.toChars p.2)

/-! ## Characters -/

/-- The characters of keys, keywords, numbers and weekdays. -/
def isWordChar (c : Char) : Bool :=
  c.isUpper || c.isDigit || c == '-'

/-- The characters of a rule's text: those of words, and what stands between words. -/
def isTextChar (c : Char) : Bool :=
  isWordChar c || c == '=' || c == ',' || c == ';'

theorem isTextChar_of_isWordChar {c : Char} (h : isWordChar c = true) : isTextChar c = true := by
  simp [isTextChar, h]

/-- What is no character of words is in no word. -/
theorem not_mem_of_isWordChar {cs : List Char} (h : ∀ c ∈ cs, isWordChar c = true) {d : Char}
    (hd : isWordChar d = false) : d ∉ cs :=
  fun hmem ↦ Bool.false_ne_true (hd.symm.trans (h d hmem))

theorem isWordChar_keyword (u : Unit) : ∀ c ∈ u.keyword.toList, isWordChar c = true :=
  List.all_eq_true.mp (by cases u <;> rfl)

theorem isWordChar_key (part : Part) : ∀ c ∈ part.key.toList, isWordChar c = true :=
  List.all_eq_true.mp (by cases part <;> rfl)

theorem isWordChar_code (w : Weekday) : ∀ c ∈ w.code.toList, isWordChar c = true :=
  List.all_eq_true.mp (by cases w <;> rfl)

theorem isWordChar_toDigits (n : Nat) : ∀ c ∈ Nat.toDigits 10 n, isWordChar c = true := by
  intro c hc
  simp [isWordChar, Text.isDigit_of_mem_toDigits n c hc]

theorem isWordChar_integerChars (n : Int) : ∀ c ∈ Text.integerChars n, isWordChar c = true := by
  unfold Text.integerChars
  split
  · intro c hc
    rcases List.mem_cons.mp hc with rfl | hc
    · decide
    · exact isWordChar_toDigits _ c hc
  · exact isWordChar_toDigits _

theorem Day.toChars_some (place : Int) (w : Weekday) :
    toChars ⟨some place, w⟩ = Text.integerChars place ++ w.code.toList :=
  rfl

theorem isWordChar_day (day : Day) : ∀ c ∈ day.toChars, isWordChar c = true := by
  obtain ⟨place, weekday⟩ := day
  cases place with
  | none => exact isWordChar_code weekday
  | some place =>
    intro c hc
    exact (List.mem_append.mp hc).elim (isWordChar_integerChars place c)
      (isWordChar_code weekday c)

/-! ## Weekdays -/

/-- The last two characters of an entry name the weekday, and the others may be its place. -/
theorem readDay_append (front : List Char) (w : Weekday) :
    readDay (front ++ w.code.toList) =
      .ok ⟨(Text.readSignedWithin? Text.minInt16 Text.maxInt16 front).filter (· ≠ 0), w⟩ := by
  have hlength : (front ++ w.code.toList).length - 2 = front.length := by
    rw [List.length_append, w.length_code, Nat.add_sub_cancel]
  rw [readDay, hlength, List.take_left, List.drop_left, String.ofList_toList, w.ofCode?_code]

theorem readDay_toChars {day : Day} (h : day.Writable) : readDay day.toChars = .ok day := by
  obtain ⟨place, weekday⟩ := day
  cases place with
  | none => exact readDay_append [] weekday
  | some place =>
    obtain ⟨hzero, hmin, hmax⟩ := h place rfl
    rw [Day.toChars_some, readDay_append, Text.readSignedWithin?_integerChars hmin hmax]
    simp [hzero]

theorem readDays_daysToText {days : List Day} (h : ∀ day ∈ days, day.Writable) (hne : days ≠ []) :
    readDays (daysToText days) = .ok days := by
  have hcommas : ∀ entry ∈ days.map Day.toChars, ',' ∉ entry := by
    intro entry hentry
    obtain ⟨day, -, rfl⟩ := List.mem_map.mp hentry
    exact not_mem_of_isWordChar (isWordChar_day day) (by decide)
  have hread : days.mapM (readDay ∘ Day.toChars) = .ok (days.map id) :=
    Except.mapM_eq_ok_map fun day hday ↦ readDay_toChars (h day hday)
  rw [readDays, daysToText, List.splitOn_intercalate ',' hcommas (by simpa using hne),
    List.mapM_map, hread, List.map_id]

/-! ## Parts -/

theorem readUnit_keyword (u : Unit) : readUnit u.keyword.toList = .ok u := by
  cases u <;> rfl

theorem checkWeekStart_code (w : Weekday) : checkWeekStart w.code.toList = .ok ⟨⟩ := by
  cases w <;> rfl

theorem Part.upper_key (part : Part) : Text.upper part.key.toList = part.key.toList := by
  cases part <;> rfl

theorem readPart_toChars (part : Part) (value : List Char) :
    readPart (part.toChars value) = .ok (part.key, part, value) := by
  have hkey : '=' ∉ part.key.toList := not_mem_of_isWordChar (isWordChar_key part) (by decide)
  rw [readPart, Part.toChars, Text.dropWhile_append_separator hkey,
    Text.takeWhile_append_separator hkey]
  simp only [Part.upper_key, String.ofList_toList, Part.ofKey?_key]

/-- Parts that differ from each other and from those before them are added in order. -/
theorem foldlM_addPart {before parts : List (Part × List Char)}
    (h : ((before ++ parts).map Prod.fst).Nodup) :
    (parts.map fun p ↦ p.1.toChars p.2).foldlM addPart before = .ok (before ++ parts) := by
  induction parts generalizing before with
  | nil =>
    rw [List.append_nil]
    rfl
  | cons p parts ih =>
    have hmore : ((before ++ [p] ++ parts).map Prod.fst).Nodup := by
      rwa [List.append_assoc, List.singleton_append]
    have hnew : p.1 ∉ before.map Prod.fst := by
      rw [List.map_append, List.nodup_append] at h
      intro hmem
      exact h.2.2 p.1 hmem p.1 List.mem_cons_self rfl
    have hadd : addPart before (p.1.toChars p.2) = .ok (before ++ [p]) :=
      addPart_eq_ok_iff.mpr ⟨p.1.key, p.1, p.2, readPart_toChars p.1 p.2, hnew, rfl⟩
    calc
      ((p :: parts).map fun p ↦ p.1.toChars p.2).foldlM addPart before =
          (parts.map fun p ↦ p.1.toChars p.2).foldlM addPart (before ++ [p]) := by
        rw [List.map_cons, List.foldlM_cons, Except.bind_of_eq_ok hadd]
      _ = .ok (before ++ [p] ++ parts) := ih hmore
      _ = .ok (before ++ p :: parts) := by rw [List.append_assoc, List.singleton_append]

theorem readParts_partsToText {parts : List (Part × List Char)}
    (hnodup : (parts.map Prod.fst).Nodup) (hvalue : ∀ p ∈ parts, ';' ∉ p.2) (hne : parts ≠ []) :
    readParts (partsToText parts) = .ok parts := by
  have hpieces : ∀ piece ∈ parts.map (fun p ↦ p.1.toChars p.2), ';' ∉ piece := by
    intro piece hpiece
    obtain ⟨p, hp, rfl⟩ := List.mem_map.mp hpiece
    rw [Part.toChars, List.mem_append, List.mem_cons, not_or, not_or]
    exact ⟨not_mem_of_isWordChar (isWordChar_key p.1) (by decide), by decide, hvalue p hp⟩
  have hnonempty : (parts.map fun p ↦ p.1.toChars p.2).filter (fun piece ↦ !piece.isEmpty) =
      parts.map fun p ↦ p.1.toChars p.2 := by
    rw [List.filter_eq_self]
    intro piece hpiece
    obtain ⟨p, -, rfl⟩ := List.mem_map.mp hpiece
    simp [Part.toChars]
  rw [readParts, partsToText, List.splitOn_intercalate ';' hpieces (by simpa using hne), hnonempty]
  exact foldlM_addPart hnodup

/-! ## The order of parts -/

section Order

variable {parts parts' : List (Part × List Char)}

/-- What is found for a part does not depend on the order of the parts. -/
theorem lookup_eq_of_perm (hnodup : (parts'.map Prod.fst).Nodup) (h : parts.Perm parts')
    (part : Part) : parts.lookup part = parts'.lookup part := by
  cases hlookup : parts'.lookup part with
  | none =>
    rw [List.lookup_eq_none_iff] at hlookup ⊢
    exact fun p hp ↦ hlookup p (h.mem_iff.mp hp)
  | some value =>
    obtain ⟨front, rest, rfl, -⟩ := List.lookup_eq_some_iff.mp hlookup
    have hmem : (part, value) ∈ front ++ (part, value) :: rest :=
      List.mem_append_right front List.mem_cons_self
    exact lookup_eq_some_of_mem ((h.map Prod.fst).nodup_iff.mpr hnodup) (h.mem_iff.mpr hmem)

/-- The rule of parts depends on what is found for each of them, and on nothing else. -/
theorem ofParts_congr (h : ∀ part, parts.lookup part = parts'.lookup part) :
    ofParts parts = ofParts parts' := by
  have hread : ∀ {α : Type} (part : Part) (default : α) (read : List Char → Except SyntaxError α),
      readOr parts part default read = readOr parts' part default read := by
    intro α part default read
    rw [readOr, readOr, h]
  have hlist : listOfParts parts = listOfParts parts' := funext fun part ↦ hread part _ _
  unfold ofParts unitOfParts countOfParts stopOfParts
  simp only [h, hread, hlist]

end Order

/-! ## The parts of a wording -/

namespace Wording

variable (w : Wording)

theorem nodup_parts : (w.parts.map Prod.fst).Nodup := by
  unfold parts
  cases w.interval <;> cases w.weekStart <;> split <;> simp

theorem lookup_interval : w.parts.lookup .interval = w.interval.map (Nat.toDigits 10) := by
  unfold parts
  cases w.interval <;> cases w.weekStart <;> split <;> rfl

theorem lookup_days :
    w.parts.lookup .days = (if w.days.isEmpty then none else some w.days).map daysToText := by
  unfold parts
  cases w.interval <;> cases w.weekStart <;> split <;> rfl

theorem lookup_weekStart :
    w.parts.lookup .weekStart = w.weekStart.map fun day ↦ day.code.toList := by
  unfold parts
  cases w.interval <;> cases w.weekStart <;> split <;> rfl

theorem mem_parts {w : Wording} {p : Part × List Char} (h : p ∈ w.parts) :
    p = (.frequency, w.unit.keyword.toList) ∨ (∃ n, p = (.interval, Nat.toDigits 10 n)) ∨
      p = (.days, daysToText w.days) ∨ ∃ day : Weekday, p = (.weekStart, day.code.toList) := by
  simp only [parts, List.mem_cons, List.mem_append, Option.mem_toList, Option.map_eq_some_iff] at h
  rcases h with h | (⟨n, -, h⟩ | h) | ⟨day, -, h⟩
  · exact .inl h
  · exact .inr (.inl ⟨n, h.symm⟩)
  · split at h
    · cases h
    · exact .inr (.inr (.inl (List.mem_singleton.mp h)))
  · exact .inr (.inr (.inr ⟨day, h.symm⟩))

theorem lookup_eq_none {part : Part} (h : part ∉ [Part.frequency, .interval, .days, .weekStart]) :
    w.parts.lookup part = none := by
  simp only [List.mem_cons, List.not_mem_nil, or_false, not_or] at h
  rw [List.lookup_eq_none_iff]
  intro p hp
  rcases mem_parts hp with rfl | ⟨n, rfl⟩ | rfl | ⟨day, rfl⟩
  · simpa using h.1
  · simpa using h.2.1
  · simpa using h.2.2.1
  · simpa using h.2.2.2

/-- Values hold words and commas. -/
theorem isWordChar_or_eq_of_mem_parts {p : Part × List Char} (h : p ∈ w.parts) {c : Char}
    (hc : c ∈ p.2) : isWordChar c = true ∨ c = ',' := by
  rcases mem_parts h with rfl | ⟨n, rfl⟩ | rfl | ⟨day, rfl⟩
  · exact .inl (isWordChar_keyword w.unit c hc)
  · exact .inl (isWordChar_toDigits n c hc)
  · rcases Text.mem_intercalate hc with rfl | ⟨entry, hentry, hc⟩
    · exact .inr rfl
    · obtain ⟨day, -, rfl⟩ := List.mem_map.mp hentry
      exact .inl (isWordChar_day day c hc)
  · exact .inl (isWordChar_code day c hc)

theorem readOr_interval :
    readOr w.parts .interval 1 (readNumber .interval Text.maxNat16) = .ok w.rule.interval := by
  have hread : ∀ n, w.interval = some n →
      readNumber .interval Text.maxNat16 (Nat.toDigits 10 n) = .ok n := by
    intro n hn
    rw [readNumber, Text.readUnsignedUpTo?_toDigits (w.interval_le n hn)]
  rw [readOr_of_lookup_eq_map w.lookup_interval hread, rule]

theorem readOr_days : readOr w.parts .days [] readDays = .ok w.rule.days := by
  have hread : ∀ days, (if w.days.isEmpty then none else some w.days) = some days →
      readDays (daysToText days) = .ok days := by
    intro days hdays
    split at hdays
    · cases hdays
    · next hne =>
      cases hdays
      exact readDays_daysToText w.writable (by simpa using hne)
  rw [readOr_of_lookup_eq_map w.lookup_days hread, rule]
  split
  · next hempty => rw [List.isEmpty_iff.mp hempty, Option.getD_none]
  · rfl

theorem readOr_weekStart : readOr w.parts .weekStart ⟨⟩ checkWeekStart = .ok ⟨⟩ := by
  cases hstart : w.weekStart with
  | none => rw [readOr_of_lookup_eq_none (by rw [lookup_weekStart, hstart]; rfl)]
  | some day =>
    rw [readOr_of_lookup_eq_some (by rw [lookup_weekStart, hstart]; rfl), checkWeekStart_code]

/-- The parts of a wording are those of its rule. -/
theorem ofParts_parts : ofParts w.parts = .ok w.rule := by
  have hnone : ∀ part, part ∉ [Part.frequency, .interval, .days, .weekStart] →
      w.parts.lookup part = none := fun _ ↦ w.lookup_eq_none
  have hlist : ∀ part, part ∉ [Part.frequency, .interval, .days, .weekStart] →
      listOfParts w.parts part = .ok [] :=
    fun part hpart ↦ readOr_of_lookup_eq_none (hnone part hpart)
  rw [ofParts_eq_ok_iff]
  refine ⟨readUnit_keyword w.unit, w.readOr_interval, w.readOr_days, w.readOr_weekStart,
    [], [], _, _, readOr_of_lookup_eq_none (hnone _ (by decide)),
    readOr_of_lookup_eq_none (hnone _ (by decide)),
    Except.mapM_eq_ok_map (g := fun _ ↦ []) ?_, Except.mapM_eq_ok_map (g := fun _ ↦ []) ?_, rfl⟩
  -- The lists that a wording has no part for are empty.
  · intro part hpart
    exact hlist part (by revert part; decide)
  · intro part hpart
    exact hlist part (by revert part; decide)

end Wording

/-! ## The whole text -/

/-- A text that starts with a key names no property. -/
theorem lineProperty?_toChars (part : Part) (value rest : List Char) :
    lineProperty? (part.toChars value ++ rest) = none := by
  cases part <;> rfl

section Whole

variable {w : Wording} {parts : List (Part × List Char)}

theorem isTextChar_partsToText (h : parts.Perm w.parts) :
    ∀ c ∈ partsToText parts, isTextChar c = true := by
  intro c hc
  rcases Text.mem_intercalate hc with rfl | ⟨piece, hpiece, hc⟩
  · decide
  · obtain ⟨p, hp, rfl⟩ := List.mem_map.mp hpiece
    rw [Part.toChars, List.mem_append, List.mem_cons] at hc
    rcases hc with hc | rfl | hc
    · exact isTextChar_of_isWordChar (isWordChar_key p.1 c hc)
    · decide
    · rcases w.isWordChar_or_eq_of_mem_parts (h.mem_iff.mp hp) hc with hc | rfl
      · exact isTextChar_of_isWordChar hc
      · decide

theorem not_mem_partsToText (h : parts.Perm w.parts) {c : Char} (hc : isTextChar c = false) :
    c ∉ partsToText parts :=
  fun hmem ↦ Bool.false_ne_true (hc.symm.trans (isTextChar_partsToText h c hmem))

theorem ne_nil_of_perm_parts (h : parts.Perm w.parts) : parts ≠ [] := by
  rintro rfl
  exact List.cons_ne_nil _ _ h.nil_eq.symm

/-- A text of parts starts with the key of the first one. -/
theorem exists_partsToText_eq (h : parts.Perm w.parts) :
    ∃ (part : Part) (value rest : List Char), partsToText parts = part.toChars value ++ rest := by
  cases parts with
  | nil => exact absurd rfl (ne_nil_of_perm_parts h)
  | cons p parts =>
    obtain ⟨rest, hrest⟩ := Text.exists_intercalate_cons_eq ';' (p.1.toChars p.2)
      (parts.map fun p ↦ p.1.toChars p.2)
    exact ⟨p.1, p.2, rest, hrest⟩

theorem property?_partsToText (h : parts.Perm w.parts) : property? (partsToText parts) = none := by
  obtain ⟨part, value, rest, hrest⟩ := exists_partsToText_eq h
  rw [property?, List.splitOn_eq_singleton (not_mem_partsToText h (by decide)),
    List.findSome?_singleton, hrest, lineProperty?_toChars]

theorem propertyValue_partsToText (h : parts.Perm w.parts) :
    propertyValue (partsToText parts) = .ok (partsToText parts) := by
  have hcolon : (partsToText parts).dropWhile (· ≠ ':') = [] :=
    Text.dropWhile_eq_nil_iff.mpr (not_mem_partsToText h (by decide))
  rw [propertyValue, property?_partsToText h, hcolon]
  rfl

/-- The parts of a wording are read in every order, as its rule. -/
theorem parse_partsToText (h : parts.Perm w.parts) : parse (partsToText parts) = .ok w.rule := by
  have hnodup : (parts.map Prod.fst).Nodup := (h.map Prod.fst).nodup_iff.mpr w.nodup_parts
  have hvalue : ∀ p ∈ parts, ';' ∉ p.2 := by
    intro p hp hmem
    rcases w.isWordChar_or_eq_of_mem_parts (h.mem_iff.mp hp) hmem with hword | hcomma
    · exact absurd hword (by decide)
    · exact absurd hcomma (by decide)
  have hread : readParts (partsToText parts) = .ok parts :=
    readParts_partsToText hnodup hvalue (ne_nil_of_perm_parts h)
  have hrule : ofParts parts = .ok w.rule := by
    rw [ofParts_congr (lookup_eq_of_perm w.nodup_parts h), w.ofParts_parts]
  exact Except.bind_eq_ok_iff.mpr ⟨_, propertyValue_partsToText h,
    Except.bind_eq_ok_iff.mpr ⟨_, hread, hrule⟩⟩

end Whole

end Rule

end MeetingCalendar
