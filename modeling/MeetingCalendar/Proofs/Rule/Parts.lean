import MeetingCalendar.Proofs.Except
import MeetingCalendar.Proofs.Text
import MeetingCalendar.Rule.Parser

/-!
# What the text of a rule says

Reading a rule takes its text apart: the value behind a property name, parts between semicolons, a
key and a value in each part.  Each step is told here by what must be there when it succeeds, and
`Rule.value_of_ofParts` puts the steps together: in a rule that nothing but its interval and its
weekdays restricts, every part has one of a few keys, or is a list without an item.
-/

namespace MeetingCalendar.Rule

theorem Part.ofKey?_key (part : Part) : ofKey? part.key = some part := by
  cases part <;> rfl

theorem Part.eq_of_ofKey? {key : String} {part : Part} (h : ofKey? key = some part) :
    key = part.key ∨ key = "BYWEEKDAY" ∧ part = .days := by
  unfold ofKey? at h
  by_cases hkey : key = "BYWEEKDAY"
  · rw [if_pos hkey] at h
    exact .inr ⟨hkey, (Option.some.inj h).symm⟩
  · rw [if_neg hkey] at h
    have hfound := List.find?_some h
    exact .inl (beq_iff_eq.mp hfound).symm

/-! ## Single parts -/

section Reading

variable {before after parts : List (Part × List Char)} {piece value : List Char} {key : String}
  {part : Part}

/-- A part is a key in front of its first equals sign and a value behind it. -/
theorem readPart_eq_ok (h : readPart piece = .ok (key, part, value)) :
    '=' ∉ key.toList ∧ piece = key.toList ++ '=' :: value ∧
      Part.ofKey? (String.ofList (Text.upper key.toList)) = some part := by
  unfold readPart at h
  split at h
  · cases h
  · next rest hdrop =>
    dsimp only at h
    split at h
    · cases h
    · next found hfound =>
      cases h
      rw [String.toList_ofList]
      exact ⟨Text.not_mem_takeWhile '=' piece, Text.eq_append_of_dropWhile hdrop, hfound⟩

theorem addPart_eq_ok_iff :
    addPart before piece = .ok after ↔
      ∃ key part value, readPart piece = .ok (key, part, value) ∧
        part ∉ before.map Prod.fst ∧ after = before ++ [(part, value)] := by
  unfold addPart
  simp only [Except.bind_eq_ok_iff, Prod.exists]
  have hany : ∀ part : Part,
      before.any (fun p ↦ p.1 = part) = true ↔ part ∈ before.map Prod.fst := by
    intro part
    simp
  constructor
  · rintro ⟨key, part, value, hread, hadd⟩
    by_cases hmem : part ∈ before.map Prod.fst
    · rw [if_pos ((hany part).mpr hmem)] at hadd
      cases hadd
    · rw [if_neg (fun h ↦ hmem ((hany part).mp h))] at hadd
      cases hadd
      exact ⟨key, part, value, hread, hmem, rfl⟩
  · rintro ⟨key, part, value, hread, hmem, hafter⟩
    refine ⟨key, part, value, hread, ?_⟩
    rw [if_neg (fun h ↦ hmem ((hany part).mp h)), hafter]

/-! ## All parts -/

/-- Every piece is added, and no part twice. -/
theorem foldlM_addPart_eq_ok {pieces : List (List Char)}
    (h : pieces.foldlM addPart before = .ok after) :
    (∀ p ∈ before, p ∈ after) ∧
      ((before.map Prod.fst).Nodup → (after.map Prod.fst).Nodup) ∧
      ∀ piece ∈ pieces, ∃ key part value, readPart piece = .ok (key, part, value) ∧
        (part, value) ∈ after := by
  induction pieces generalizing before with
  | nil =>
    obtain rfl := Except.pure_eq_ok_iff.mp h
    exact ⟨fun _ ↦ id, id, fun _ hmem ↦ absurd hmem List.not_mem_nil⟩
  | cons piece pieces ih =>
    rw [List.foldlM_cons] at h
    obtain ⟨next, hadd, hrest⟩ := Except.bind_eq_ok_iff.mp h
    obtain ⟨key, part, value, hread, hnew, rfl⟩ := addPart_eq_ok_iff.mp hadd
    obtain ⟨hkept, hnodup, hread'⟩ := ih hrest
    refine ⟨fun p hp ↦ hkept p (List.mem_append_left _ hp), fun hbefore ↦ hnodup ?_, ?_⟩
    · rw [List.map_append, List.map_singleton, List.nodup_append]
      refine ⟨hbefore, List.pairwise_singleton _ _, fun q hq q' hq' heq ↦ hnew ?_⟩
      have hpart : q' = part := List.mem_singleton.mp hq'
      exact hpart ▸ heq ▸ hq
    · intro piece' hpiece'
      rcases List.mem_cons.mp hpiece' with rfl | hpiece'
      · exact ⟨key, part, value, hread, hkept _ (List.mem_append_right _ List.mem_cons_self)⟩
      · exact hread' piece' hpiece'

/-- The value of a part that occurs once. -/
theorem lookup_eq_some_of_mem (hnodup : (parts.map Prod.fst).Nodup) (h : (part, value) ∈ parts) :
    parts.lookup part = some value := by
  induction parts with
  | nil => cases h
  | cons p parts ih =>
    rw [List.map_cons, List.nodup_cons] at hnodup
    rcases List.mem_cons.mp h with rfl | h
    · exact List.lookup_cons_self
    · have hne : part ≠ p.1 := by
        intro heq
        exact hnodup.1 (heq ▸ List.mem_map_of_mem h)
      rw [List.lookup_cons, beq_false_of_ne hne]
      exact ih hnodup.2 h

/-- Every piece that is not empty is a part, and its value is the one that is found for it. -/
theorem readParts_eq_ok (h : readParts value = .ok parts) :
    ∀ piece ∈ value.splitOn ';', piece ≠ [] →
      ∃ key part v, readPart piece = .ok (key, part, v) ∧ parts.lookup part = some v := by
  obtain ⟨-, hnodup, hread⟩ := foldlM_addPart_eq_ok h
  intro piece hpiece hne
  have hkept : piece ∈ (value.splitOn ';').filter fun piece ↦ !piece.isEmpty :=
    List.mem_filter.mpr ⟨hpiece, by simpa using hne⟩
  obtain ⟨key, part, v, hpart, hmem⟩ := hread piece hkept
  exact ⟨key, part, v, hpart, lookup_eq_some_of_mem (hnodup List.nodup_nil) hmem⟩

end Reading

/-! ## The rule of parts -/

section OfParts

variable {parts : List (Part × List Char)} {part : Part} {value : List Char} {rule : Rule}

theorem readOr_of_lookup_eq_none {α : Type} {default : α}
    {read : List Char → Except SyntaxError α} (h : parts.lookup part = none) :
    readOr parts part default read = .ok default := by
  rw [readOr, h]

theorem readOr_of_lookup_eq_some {α : Type} {default : α}
    {read : List Char → Except SyntaxError α} (h : parts.lookup part = some value) :
    readOr parts part default read = read value := by
  rw [readOr, h]

/-- A part that may be left out is read back if its text is. -/
theorem readOr_of_lookup_eq_map {α : Type} {default : α}
    {read : List Char → Except SyntaxError α} {value? : Option α} {write : α → List Char}
    (hlookup : parts.lookup part = value?.map write)
    (hread : ∀ a, value? = some a → read (write a) = .ok a) :
    readOr parts part default read = .ok (value?.getD default) := by
  cases value? with
  | none => exact readOr_of_lookup_eq_none hlookup
  | some a => rw [readOr_of_lookup_eq_some hlookup, hread a rfl, Option.getD_some]

/-- What the parts of a rule must read as. -/
theorem ofParts_eq_ok_iff :
    ofParts parts = .ok rule ↔
      unitOfParts parts = .ok rule.unit ∧
      readOr parts .interval 1 (readNumber .interval Text.maxNat16) = .ok rule.interval ∧
      readOr parts .days [] readDays = .ok rule.days ∧
      readOr parts .weekStart ⟨⟩ checkWeekStart = .ok ⟨⟩ ∧
      ∃ count stop dates times, countOfParts parts = .ok count ∧ stopOfParts parts = .ok stop ∧
        [Part.positions, .months, .monthDays, .yearDays, .weekNumbers].mapM
          (listOfParts parts) = .ok dates ∧
        [Part.hours, .minutes, .seconds].mapM (listOfParts parts) = .ok times ∧
        rule.others = count ++ stop ++ dates.flatten ++ times.flatten := by
  unfold ofParts
  simp only [Except.bind_eq_ok_iff, Except.pure_eq_ok_iff]
  constructor
  · rintro ⟨unit, hunit, interval, hinterval, count, hcount, stop, hstop, _, hstart, dates, hdates,
      days, hdays, times, htimes, rfl⟩
    exact ⟨hunit, hinterval, hdays, hstart, count, stop, dates, times, hcount, hstop, hdates,
      htimes, rfl⟩
  · rintro ⟨hunit, hinterval, hdays, hstart, count, stop, dates, times, hcount, hstop, hdates,
      htimes, hothers⟩
    refine ⟨_, hunit, _, hinterval, count, hcount, stop, hstop, _, hstart, dates, hdates, _, hdays,
      times, htimes, ?_⟩
    rw [← hothers]

/-- The parts whose values are lists of numbers. -/
def listParts : List Part :=
  [.positions, .months, .monthDays, .yearDays, .weekNumbers, .hours, .minutes, .seconds]

theorem count_ne_nil (h : parts.lookup .count = some value) : countOfParts parts ≠ .ok [] := by
  rw [countOfParts, readOr_of_lookup_eq_some h]
  intro hcount
  obtain ⟨n, -, hn⟩ := Except.map_eq_ok_iff.mp hcount
  cases hn

theorem stop_ne_nil (h : parts.lookup .stop = some value) : stopOfParts parts ≠ .ok [] := by
  rw [stopOfParts, readOr_of_lookup_eq_some h]
  intro hstop
  split at hstop
  · cases hstop
  · cases hstop

/-- Only a list without an item leaves a rule as it is. -/
theorem eq_nil_of_listOfParts (h : parts.lookup part = some value)
    (hlist : listOfParts parts part = .ok []) : value = [] := by
  rw [listOfParts, readOr_of_lookup_eq_some h] at hlist
  obtain ⟨restricts, hread, hnil⟩ := Except.map_eq_ok_iff.mp hlist
  unfold readList at hread
  split at hread
  · next hempty => exact List.isEmpty_iff.mp hempty
  · split at hread
    · cases hread
      cases hnil
    · cases hread

/-- Without other parts in the rule, no list has an item. -/
theorem listOfParts_of_others_eq_nil (h : ofParts parts = .ok rule) (hothers : rule.others = []) :
    countOfParts parts = .ok [] ∧ stopOfParts parts = .ok [] ∧
      ∀ part ∈ listParts, listOfParts parts part = .ok [] := by
  obtain ⟨-, -, -, -, count, stop, dates, times, hcount, hstop, hdates, htimes, hsum⟩ :=
    ofParts_eq_ok_iff.mp h
  rw [hothers] at hsum
  simp only [List.nil_eq, List.append_eq_nil_iff, List.flatten_eq_nil_iff] at hsum
  obtain ⟨⟨⟨rfl, rfl⟩, hdatesNil⟩, htimesNil⟩ := hsum
  refine ⟨hcount, hstop, ?_⟩
  intro part hpart
  have hcases : part ∈ [Part.positions, .months, .monthDays, .yearDays, .weekNumbers] ∨
      part ∈ [Part.hours, .minutes, .seconds] := by
    revert part
    decide
  rcases hcases with hmem | hmem
  · obtain ⟨found, hfound, hlist⟩ := Except.exists_mem_of_mapM_eq_ok hdates part hmem
    rw [hlist, hdatesNil found hfound]
  · obtain ⟨found, hfound, hlist⟩ := Except.exists_mem_of_mapM_eq_ok htimes part hmem
    rw [hlist, htimesNil found hfound]

/-- A part that cannot be read of nothing has a value. -/
theorem ne_nil_of_readOr {α : Type} {default a : α} {read : List Char → Except SyntaxError α}
    (hread : ∀ b, read [] ≠ .ok b) (hlookup : parts.lookup part = some value)
    (h : readOr parts part default read = .ok a) : value ≠ [] := by
  rw [readOr_of_lookup_eq_some hlookup] at h
  intro hnil
  exact hread a (hnil ▸ h)

theorem ne_nil_of_unitOfParts {u : Unit} (hlookup : parts.lookup .frequency = some value)
    (h : unitOfParts parts = .ok u) : value ≠ [] := by
  rw [unitOfParts, hlookup] at h
  rintro rfl
  cases h

/-- The parts in a rule that no other parts restrict: those that count, with a value, and lists
without an item. -/
theorem value_of_ofParts (h : ofParts parts = .ok rule) (hothers : rule.others = [])
    (hlookup : parts.lookup part = some value) :
    part ∈ [Part.frequency, .interval, .days, .weekStart] ∧ value ≠ [] ∨
      part ∈ listParts ∧ value = [] := by
  obtain ⟨hcount, hstop, hlists⟩ := listOfParts_of_others_eq_nil h hothers
  obtain ⟨hunit, hinterval, hdays, hstart, -⟩ := ofParts_eq_ok_iff.mp h
  by_cases hlist : part ∈ listParts
  · exact .inr ⟨hlist, eq_nil_of_listOfParts hlookup (hlists part hlist)⟩
  · left
    cases part with
    | count => exact absurd hcount (count_ne_nil hlookup)
    | stop => exact absurd hstop (stop_ne_nil hlookup)
    | frequency => exact ⟨by decide, ne_nil_of_unitOfParts hlookup hunit⟩
    | interval =>
      exact ⟨by decide, ne_nil_of_readOr (fun _ hread ↦ by cases hread) hlookup hinterval⟩
    | days => exact ⟨by decide, ne_nil_of_readOr (fun _ hread ↦ by cases hread) hlookup hdays⟩
    | weekStart =>
      exact ⟨by decide, ne_nil_of_readOr (fun _ hread ↦ by cases hread) hlookup hstart⟩
    | _ => exact absurd (by decide) hlist

end OfParts

/-! ## The value of a property -/

/-- The value that is read in a text, with the parts in it: the whole text, or what stands behind
its first colon. -/
theorem parse_eq_ok {cs : List Char} {rule : Rule} (h : parse cs = .ok rule) :
    ∃ value parts, readParts value = .ok parts ∧ ofParts parts = .ok rule ∧
      (':' ∉ cs ∧ value = cs ∨ ∃ front, ':' ∉ front ∧ cs = front ++ ':' :: value) := by
  obtain ⟨value, hvalue, h⟩ := Except.bind_eq_ok_iff.mp h
  obtain ⟨parts, hparts, hrule⟩ := Except.bind_eq_ok_iff.mp h
  refine ⟨value, parts, hparts, hrule, ?_⟩
  unfold propertyValue at hvalue
  dsimp only at hvalue
  split at hvalue
  · cases hvalue
  · split at hvalue
    · next hdrop =>
      refine .inl ⟨Text.dropWhile_eq_nil_iff.mp hdrop, ?_⟩
      split at hvalue
      · exact (Except.ok.inj hvalue).symm
      · -- Another property without a colon has no value, and so no frequency.
        cases hvalue
        cases hparts
        obtain ⟨hunit, -⟩ := ofParts_eq_ok_iff.mp hrule
        cases hunit
    · next rest hdrop =>
      right
      refine ⟨cs.takeWhile (· ≠ ':'), Text.not_mem_takeWhile ':' cs, ?_⟩
      split at hvalue
      · cases hvalue
        exact Text.eq_append_of_dropWhile hdrop
      · cases hvalue
        exact Text.eq_append_of_dropWhile hdrop
      · cases hvalue

/-- A rule with parameters names its property. -/
theorem property?_ne_none (parameters : List Char) :
    property? ("RRULE;".toList ++ parameters) ≠ none := by
  have hline : '\n' ∉ "RRULE;".toList := by decide
  obtain ⟨piece, pieces, hsplit⟩ := Text.exists_splitOn_append_eq hline parameters
  rw [property?, hsplit, List.findSome?_cons]
  exact Option.some_ne_none _

/-- Where no property is named, what stands in front of the first colon is dropped, whatever it
says. -/
theorem parse_append {front value : List Char} (hcolon : ':' ∉ front)
    (hname : property? (front ++ ':' :: value) = none) :
    parse (front ++ ':' :: value) = readParts value >>= ofParts := by
  have hfront : ("RRULE".toList ++ [';']).isPrefixOf? front = none := by
    rw [Option.eq_none_iff_forall_ne_some]
    intro parameters hparameters
    rw [List.isPrefixOf?_eq_some_iff_append_eq] at hparameters
    rw [← hparameters, List.append_assoc] at hname
    exact property?_ne_none _ hname
  have hvalue : propertyValue (front ++ ':' :: value) = .ok value := by
    rw [propertyValue, hname, Text.dropWhile_append_separator hcolon,
      Text.takeWhile_append_separator hcolon, Option.getD_none, hfront]
    rfl
  exact Except.bind_of_eq_ok hvalue

end MeetingCalendar.Rule
