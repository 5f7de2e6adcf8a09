import MeetingCalendar.Json.Parser
import MeetingCalendar.Json.Printer
import MeetingCalendar.Proofs.Text

/-!
# Objects of nulls

The object that maps some names to null: what is found under a name, and that its text reads back.
The names may come in any order and more than once, because reading puts the fields in order.
-/

namespace MeetingCalendar.Json

/-- The object that maps each of the names to null. -/
def nulls (names : List String) : Json :=
  ofFields (names.map (·, null))

/-! ## Fields -/

theorem lookup_cons_eq_ite (name key : String) (value : Json) (fields : List (String × Json)) :
    ((name, value) :: fields).lookup key =
      if key = name then some value else fields.lookup key := by
  rw [List.lookup_cons]
  by_cases h : key = name
  · rw [if_pos h, h, beq_self_eq_true]
  · rw [if_neg h, beq_false_of_ne h]

/-- Setting a field does not touch the others. -/
theorem lookup_setField (name key : String) (value : Json) (fields : List (String × Json)) :
    (setField name value fields).lookup key =
      if key = name then some value else fields.lookup key := by
  induction fields with
  | nil => rw [setField, lookup_cons_eq_ite]
  | cons field fields ih =>
    obtain ⟨other, old⟩ := field
    rw [setField]
    split
    · rw [lookup_cons_eq_ite]
    · split
      · next hname =>
        rw [lookup_cons_eq_ite, lookup_cons_eq_ite, hname]
        split <;> rfl
      · next hname =>
        rw [lookup_cons_eq_ite, lookup_cons_eq_ite, ih]
        by_cases hkey : key = other
        · rw [if_pos hkey, if_pos hkey, if_neg fun h ↦ hname (h.symm.trans hkey)]
        · rw [if_neg hkey, if_neg hkey]

theorem lookup_foldl_setField (names : List String) (key : String)
    (sorted : List (String × Json)) :
    ((names.map (·, null)).foldl (fun sorted field ↦ setField field.1 field.2 sorted)
      sorted).lookup key = if key ∈ names then some null else sorted.lookup key := by
  induction names generalizing sorted with
  | nil => rw [if_neg List.not_mem_nil]; rfl
  | cons name names ih =>
    rw [List.map_cons, List.foldl_cons, ih, lookup_setField]
    by_cases hkey : key = name
    · subst hkey
      rw [if_pos rfl, if_pos List.mem_cons_self]
      split <;> rfl
    · simp only [List.mem_cons, hkey, false_or, if_false]

/-- The names are mapped to null, and nothing else is there. -/
theorem lookup_sortFields_nulls (names : List String) (key : String) :
    (sortFields (names.map (·, null))).lookup key = if key ∈ names then some null else none :=
  lookup_foldl_setField names key []

theorem mem_of_mem_sortFields_nulls {names : List String} {name : String}
    (h : name ∈ (sortFields (names.map (·, null))).map Prod.fst) : name ∈ names := by
  obtain ⟨field, hfield, rfl⟩ := List.mem_map.mp h
  have hsome := List.lookup_isSome_iff.mpr ⟨field, hfield, beq_self_eq_true field.1⟩
  rw [lookup_sortFields_nulls] at hsome
  by_contra hname
  rw [if_neg hname] at hsome
  cases hsome

/-! ## The text -/

/-- Characters that stand for themselves in a quoted text. -/
def isPlain (c : Char) : Bool :=
  c != '"' && c != '\\' && decide (0x20 ≤ c.toNat)

theorem isPlain_iff {c : Char} : isPlain c = true ↔ (c ≠ '"' ∧ c ≠ '\\') ∧ 0x20 ≤ c.toNat := by
  simp only [isPlain, Bool.and_eq_true, bne_iff_ne, decide_eq_true_eq]

theorem escapeChar_of_isPlain {c : Char} (h : isPlain c = true) : escapeChar c = [c] := by
  obtain ⟨⟨hquote, hslash⟩, hlow⟩ := isPlain_iff.mp h
  have hne : ∀ d : Char, d.toNat < 0x20 → c ≠ d := by
    rintro d hd rfl
    omega
  unfold escapeChar
  simp only [beq_iff_eq, hquote, hslash, hne '\n' (by decide), hne '\r' (by decide),
    hne '\t' (by decide), hne '\x08' (by decide), hne '\x0c' (by decide), Nat.not_lt.mpr hlow,
    if_false]

theorem readText?_append {cs : List Char} (h : ∀ c ∈ cs, isPlain c = true) (rest : List Char)
    {fuel : Nat} (hfuel : cs.length < fuel) :
    readText? fuel (cs ++ '"' :: rest) = some (cs, rest) := by
  induction cs generalizing fuel with
  | nil =>
    obtain ⟨fuel, rfl⟩ := Nat.exists_eq_succ_of_ne_zero (Nat.ne_of_gt hfuel)
    rfl
  | cons c cs ih =>
    obtain ⟨fuel, rfl⟩ := Nat.exists_eq_succ_of_ne_zero (Nat.ne_of_gt (Nat.zero_lt_of_lt hfuel))
    obtain ⟨⟨hquote, hslash⟩, hlow⟩ := isPlain_iff.mp (h c List.mem_cons_self)
    have htail : readText? fuel (cs ++ '"' :: rest) = some (cs, rest) :=
      ih (fun d hd ↦ h d (List.mem_cons_of_mem c hd)) (Nat.lt_of_succ_lt_succ hfuel)
    rw [List.cons_append, readText?, if_neg (by simpa using hquote), if_neg (Nat.not_lt.mpr hlow),
      if_neg (by simpa using hslash), htail]
    rfl

/-- The characters of a field that maps a name to null. -/
def nullFieldChars (name : String) : List Char :=
  '"' :: name.toList ++ '"' :: ":null".toList

theorem toList_quote {s : String} (h : ∀ c ∈ s.toList, isPlain c = true) :
    (quote s).toList = '"' :: s.toList ++ ['"'] := by
  have hplain : s.toList.map escapeChar = s.toList.map fun c ↦ [c] :=
    List.map_congr_left fun c hc ↦ escapeChar_of_isPlain (h c hc)
  rw [quote, String.toList_ofList, List.flatMap_def, hplain, ← List.flatMap_def,
    List.flatMap_singleton']

theorem toList_compactFields_nulls {names : List String}
    (h : ∀ name ∈ names, ∀ c ∈ name.toList, isPlain c = true) :
    (compactFields (names.map (·, null))).map String.toList = names.map nullFieldChars := by
  induction names with
  | nil => rfl
  | cons name names ih =>
    have htail := ih fun other hother ↦ h other (List.mem_cons_of_mem name hother)
    have hvalue : (compact null).toList = "null".toList := rfl
    rw [List.map_cons, compactFields, List.map_cons, htail, List.map_cons, String.toList_append,
      String.toList_append, toList_quote (h name List.mem_cons_self), hvalue, nullFieldChars]
    simp

theorem toList_compact_nulls {names : List String}
    (h : ∀ name ∈ names, ∀ c ∈ name.toList, isPlain c = true) :
    (compact (object (names.map (·, null)))).toList =
      '\x7b' :: [','].intercalate (names.map nullFieldChars) ++ ['\x7d'] := by
  rw [compact, String.toList_append, String.toList_append, String.toList_intercalate,
    toList_compactFields_nulls h]
  rfl

/-- A field that maps a name to null is read, whatever follows it. -/
theorem readFields?_nullFieldChars {name : String} (h : ∀ c ∈ name.toList, isPlain c = true)
    (fuel depth : Nat) (rest : List Char) :
    readFields? (fuel + 2) depth (nullFieldChars name ++ rest) =
      match skipBlanks rest with
      | '\x7d' :: rest => some ([(name, null)], rest)
      | ',' :: rest => (readFields? (fuel + 1) depth rest).map fun (fields, rest) ↦
        ((name, null) :: fields, rest)
      | _ => none := by
  have hchars : nullFieldChars name ++ rest =
      '"' :: (name.toList ++ '"' :: (":null".toList ++ rest)) := by
    rw [nullFieldChars, List.cons_append, List.cons_append, List.append_assoc, List.cons_append]
  have hname : readText? ((name.toList ++ '"' :: (":null".toList ++ rest)).length + 1)
      (name.toList ++ '"' :: (":null".toList ++ rest)) =
        some (name.toList, ":null".toList ++ rest) :=
    readText?_append h _ (by rw [List.length_append]; omega)
  have hskip : skipBlanks ('"' :: (name.toList ++ '"' :: (":null".toList ++ rest))) =
      '"' :: (name.toList ++ '"' :: (":null".toList ++ rest)) := rfl
  have hcolon : skipBlanks (":null".toList ++ rest) = ':' :: ("null".toList ++ rest) := rfl
  have hvalue : readValue? (fuel + 1) depth ("null".toList ++ rest) = some (null, rest) := by
    rw [readValue?]
    rfl
  rw [hchars, readFields?]
  simp only [hskip, hname, hcolon, hvalue, Option.bind_eq_bind, Option.bind_some,
    String.ofList_toList]
  generalize skipBlanks rest = following
  split
  · rfl
  · next following =>
    change _ = (readFields? (fuel + 1) depth following).map _
    cases readFields? (fuel + 1) depth following <;> rfl
  · simp only

/-- The fields of an object of nulls are read up to the end of the object. -/
theorem readFields?_nulls {names : List String} (hne : names ≠ [])
    (h : ∀ name ∈ names, ∀ c ∈ name.toList, isPlain c = true) (depth : Nat) (rest : List Char)
    {fuel : Nat} (hfuel : names.length < fuel) :
    readFields? fuel depth ([','].intercalate (names.map nullFieldChars) ++ '\x7d' :: rest) =
      some (names.map (·, null), rest) := by
  induction names generalizing fuel with
  | nil => exact absurd rfl hne
  | cons name names ih =>
    obtain ⟨fuel, rfl⟩ : ∃ k, fuel = k + 2 := ⟨fuel - 2, by simp at hfuel; omega⟩
    have hname := h name List.mem_cons_self
    cases names with
    | nil =>
      rw [List.map_singleton, List.intercalate_singleton, readFields?_nullFieldChars hname]
      rfl
    | cons next names =>
      have htail : readFields? (fuel + 1) depth
          ([','].intercalate ((next :: names).map nullFieldChars) ++ '\x7d' :: rest) =
            some ((next :: names).map (·, null), rest) :=
        ih (List.cons_ne_nil _ _) (fun other hother ↦ h other (List.mem_cons_of_mem name hother))
          (by simp at hfuel ⊢; omega)
      rw [List.map_cons, List.map_cons, List.intercalate_cons_cons, ← List.map_cons,
        List.append_assoc, List.append_assoc, readFields?_nullFieldChars hname]
      change Option.map _ (readFields? (fuel + 1) depth
        ([','].intercalate ((next :: names).map nullFieldChars) ++ '\x7d' :: rest)) = _
      rw [htail]
      rfl

theorem length_le_length_intercalate (names : List String) :
    names.length ≤ ([','].intercalate (names.map nullFieldChars)).length := by
  induction names with
  | nil => exact Nat.zero_le _
  | cons name names ih =>
    cases names with
    | nil => simp [nullFieldChars]
    | cons next names =>
      rw [List.map_cons, List.map_cons, List.intercalate_cons_cons, ← List.map_cons]
      simp only [List.length_append, List.length_cons] at ih ⊢
      omega

/-- An object of nulls is read, whatever follows it. -/
theorem readValue?_nulls {names : List String}
    (h : ∀ name ∈ names, ∀ c ∈ name.toList, isPlain c = true) (depth : Nat) (rest : List Char)
    {fuel : Nat} (hfuel : names.length < fuel) :
    readValue? (fuel + 1) (depth + 1)
      ('\x7b' :: [','].intercalate (names.map nullFieldChars) ++ '\x7d' :: rest) =
        some (nulls names, rest) := by
  cases names with
  | nil =>
    rw [readValue?]
    rfl
  | cons name names =>
    have hfields := readFields?_nulls (List.cons_ne_nil name names) h depth rest hfuel
    -- the object is not empty: its text goes on with a quote
    obtain ⟨cs, hcs⟩ := Text.exists_intercalate_cons_eq ',' (nullFieldChars name)
      (names.map nullFieldChars)
    rw [List.map_cons, hcs] at hfields ⊢
    rw [List.cons_append, readValue?]
    change Option.map _ (readFields? fuel depth (nullFieldChars name ++ cs ++ '\x7d' :: rest)) = _
    rw [hfields]
    rfl

/-- The text of an object of nulls reads as the object. -/
theorem parse?_compact_nulls {names : List String}
    (h : ∀ name ∈ names, ∀ c ∈ name.toList, isPlain c = true) :
    parse? (compact (object (names.map (·, null)))) = some (nulls names) := by
  have hlength := length_le_length_intercalate names
  have hfuel : names.length <
      2 * ('\x7b' :: [','].intercalate (names.map nullFieldChars) ++ ['\x7d']).length + 1 := by
    simp only [List.length_append, List.length_cons]
    omega
  unfold parse?
  simp only [toList_compact_nulls h, maxDepth, readValue?_nulls h 126 [] hfuel]
  rfl

/-! ## Blank texts -/

theorem readNumber?_of_blank {cs : List Char} (h : ∀ c ∈ cs, Text.isBlankChar c = true) :
    readNumber? cs = none := by
  have hdigits : cs.takeWhile Char.isDigit = [] := by
    rw [List.takeWhile_eq_nil_iff]
    intro hlength hdigit
    have hblank := h _ (List.get_mem cs ⟨0, hlength⟩)
    rw [Text.isBlankChar_of_isDigit hdigit] at hblank
    cases hblank
  unfold readNumber?
  split
  · exact absurd (h '-' List.mem_cons_self) (by decide)
  · rw [readMagnitude?, hdigits]
    rfl

/-- No value starts with a blank. -/
theorem readValue?_of_blank {cs : List Char} (h : ∀ c ∈ cs, Text.isBlankChar c = true)
    (fuel depth : Nat) : readValue? fuel depth cs = none := by
  have hrest : ∀ c ∈ skipBlanks cs, Text.isBlankChar c = true := fun c hc ↦
    h c ((List.dropWhile_suffix _).mem hc)
  cases fuel with
  | zero => rw [readValue?]
  | succ fuel =>
    rw [readValue?]
    generalize skipBlanks cs = rest at hrest
    split
    case h_7 => exact readNumber?_of_blank hrest
    all_goals exact absurd (hrest _ List.mem_cons_self) (by decide)

/-- A blank text is no JSON. -/
theorem isBlank_of_parse? {text : String} {value : Json} (h : parse? text = some value) :
    Text.isBlank text = false := by
  cases hblank : Text.isBlank text with
  | false => rfl
  | true =>
    rw [parse?, readValue?_of_blank (List.all_eq_true.mp hblank)] at h
    cases h

end MeetingCalendar.Json
