import Mathlib.Tactic.IntervalCases
import MeetingCalendar.Date.Text
import MeetingCalendar.Pattern.Reading
import MeetingCalendar.Proofs.Date.DayNumber
import MeetingCalendar.Proofs.Text

/-!
# Fields written and read back

How the fields of a pattern are written for a moment, and that each of them is read from the front
of a text that starts so.  Numbers of two digits and names end by themselves; a year with a sign
goes on as long as digits follow.
-/

namespace MeetingCalendar

structure Moment where
  date : Date
  time : TimeOfDay

namespace Pattern

/-! ## Writing -/

/-- The hour on the face of a clock, from 1 to 12. -/
def clockHour (hour : Nat) : Nat :=
  if hour % 12 = 0 then 12 else hour % 12

theorem clockHour_mod (hour : Nat) : clockHour hour % 12 = hour % 12 := by
  unfold clockHour
  split <;> omega

theorem clockHour_bounds (hour : Nat) : 1 ≤ clockHour hour ∧ clockHour hour ≤ 12 := by
  unfold clockHour
  split <;> omega

def Field.written (m : Moment) : Field → List Char
  | year => yearChars m.date.year
  | yearOfCentury => Text.paddedDigits 2 (m.date.year % 100).toNat
  | month => Text.paddedDigits 2 m.date.month
  | monthShort => (monthName m.date.month).toList.take 3
  | monthLong => (monthName m.date.month).toList
  | day => Text.paddedDigits 2 m.date.day
  | hour => Text.paddedDigits 2 m.time.hour
  | hourOfHalf => Text.paddedDigits 2 (clockHour m.time.hour)
  | minute => Text.paddedDigits 2 m.time.minute
  | second => Text.paddedDigits 2 m.time.second
  | half => if m.time.hour < 12 then "AM".toList else "PM".toList
  | weekdayShort => m.date.weekday.name.toList.take 3
  | weekdayLong => m.date.weekday.name.toList

/-! ## Numbers -/

section Numbers

variable {ds rest : List Char}

theorem readDigitRun?_append (hdigit : ∀ c ∈ ds, c.isDigit = true) (hne : ds ≠ [])
    (rest : List Char) : readDigitRun? (some ds.length) (ds ++ rest) =
      some (Nat.ofDigitChars 10 ds 0, rest) := by
  simp only [readDigitRun?, List.takeWhile_append_of_pos hdigit, List.take_left]
  rw [if_neg (by simpa using hne), List.drop_left]

/-- Without a limit the digits must not go on. -/
theorem readDigitRun?_append_of_head (hdigit : ∀ c ∈ ds, c.isDigit = true) (hne : ds ≠ [])
    (hrest : ∀ c ∈ rest.head?, c.isDigit = false) :
    readDigitRun? none (ds ++ rest) = some (Nat.ofDigitChars 10 ds 0, rest) := by
  have hstop : rest.takeWhile Char.isDigit = [] := by
    cases rest with
    | nil => rfl
    | cons c rest => exact List.takeWhile_cons_of_neg (ne_true_of_eq_false (hrest c rfl))
  simp only [readDigitRun?, List.takeWhile_append_of_pos hdigit, hstop, List.append_nil]
  rw [if_neg (by simpa using hne), List.drop_left]

theorem trimStart_append_of_isDigit (hdigit : ∀ c ∈ ds, c.isDigit = true) (hne : ds ≠ [])
    (rest : List Char) : Text.trimStart (ds ++ rest) = ds ++ rest := by
  cases ds with
  | nil => exact absurd rfl hne
  | cons c ds =>
    exact Text.trimStart_cons_of_not_blank
      (Text.isBlankChar_of_isDigit (hdigit c List.mem_cons_self)) _

/-- Two digits are read as the number that they were written for. -/
theorem readPair?_append {n : Nat} (h : n < 100) (rest : List Char) :
    readPair? (Text.paddedDigits 2 n ++ rest) = some (n, rest) := by
  have hdigit := Text.isDigit_of_mem_paddedDigits 2 n
  have hne := Text.paddedDigits_ne_nil 2 n
  have hread := readDigitRun?_append hdigit hne rest
  rw [Text.length_paddedDigits (by decide) h, Text.ofDigitChars_paddedDigits] at hread
  rw [readPair?, trimStart_append_of_isDigit hdigit hne, hread]

/-- Digits have no sign in front. -/
theorem readYear?_of_isDigit (hdigit : ∀ c ∈ ds, c.isDigit = true) (hne : ds ≠ [])
    (rest : List Char) : readYear? (ds ++ rest) =
      (readDigitRun? (some 4) (ds ++ rest)).map fun (n, rest) ↦ ((n : Int), rest) := by
  rw [readYear?, trimStart_append_of_isDigit hdigit hne]
  cases ds with
  | nil => exact absurd rfl hne
  | cons c ds =>
    have hc := hdigit c List.mem_cons_self
    rw [List.cons_append]
    split
    · next heq =>
      rw [(List.cons.inj heq).1] at hc
      exact absurd hc (by decide)
    · next heq =>
      rw [(List.cons.inj heq).1] at hc
      exact absurd hc (by decide)
    · rfl

/-- A year is read back; with a sign it needs that no digit follows. -/
theorem readYear?_append {year : Int}
    (h : (0 ≤ year ∧ year ≤ 9999) ∨ ∀ c ∈ rest.head?, c.isDigit = false) :
    readYear? (yearChars year ++ rest) = some (year, rest) := by
  have hdigit := Text.isDigit_of_mem_paddedDigits 4 year.natAbs
  have hne := Text.paddedDigits_ne_nil 4 year.natAbs
  have hvalue := Text.ofDigitChars_paddedDigits 4 year.natAbs
  have hsigned (hsign : ¬(0 ≤ year ∧ year ≤ 9999)) :
      readDigitRun? none (Text.paddedDigits 4 year.natAbs ++ rest) = some (year.natAbs, rest) := by
    rw [readDigitRun?_append_of_head hdigit hne (h.resolve_left hsign), hvalue]
  simp only [yearChars]
  split
  · next hneg =>
    have hyear : -(year.natAbs : Int) = year := by omega
    change (readDigitRun? none (Text.paddedDigits 4 year.natAbs ++ rest)).map _ = _
    rw [hsigned (by omega)]
    exact congrArg some (Prod.ext hyear rfl)
  · next hnonneg =>
    have hyear : (year.natAbs : Int) = year := by omega
    split
    · next hlong =>
      change (readDigitRun? none (Text.paddedDigits 4 year.natAbs ++ rest)).map _ = _
      rw [hsigned (by omega)]
      exact congrArg some (Prod.ext hyear rfl)
    · next hshort =>
      have hread := readDigitRun?_append hdigit hne rest
      rw [Text.length_paddedDigits (by decide) (by omega), hvalue] at hread
      rw [readYear?_of_isDigit hdigit hne, hread]
      exact congrArg some (Prod.ext hyear rfl)

end Numbers

/-! ## Names -/

theorem readMonthName?_short {month : Nat} (hpos : 1 ≤ month) (hle : month ≤ 12)
    (rest : List Char) :
    readMonthName? false ((monthName month).toList.take 3 ++ rest) = some (month, rest) := by
  interval_cases month <;> rfl

theorem readMonthName?_long {month : Nat} (hpos : 1 ≤ month) (hle : month ≤ 12)
    (rest : List Char) :
    readMonthName? true ((monthName month).toList ++ rest) = some (month, rest) := by
  interval_cases month <;> rfl

theorem readWeekdayName?_short (w : Weekday) (rest : List Char) :
    readWeekdayName? false (w.name.toList.take 3 ++ rest) = some (w, rest) := by
  cases w <;> rfl

theorem readWeekdayName?_long (w : Weekday) (rest : List Char) :
    readWeekdayName? true (w.name.toList ++ rest) = some (w, rest) := by
  cases w <;> rfl

/-! ## Words -/

section Words

/-- A text that is not empty and holds no blank. -/
def IsWord (cs : List Char) : Prop :=
  cs ≠ [] ∧ ∀ c ∈ cs, Text.isBlankChar c = false

instance (cs : List Char) : Decidable (IsWord cs) :=
  @instDecidableAnd _ _ _ (List.decidableBAll _ cs)

theorem isWord_paddedDigits (width n : Nat) : IsWord (Text.paddedDigits width n) :=
  ⟨Text.paddedDigits_ne_nil width n, fun c hc ↦
    Text.isBlankChar_of_isDigit (Text.isDigit_of_mem_paddedDigits width n c hc)⟩

theorem IsWord.cons {c : Char} {cs : List Char} (hc : Text.isBlankChar c = false) (h : IsWord cs) :
    IsWord (c :: cs) :=
  ⟨List.cons_ne_nil c cs, List.forall_mem_cons.mpr ⟨hc, h.2⟩⟩

theorem isWord_yearChars (year : Int) : IsWord (yearChars year) := by
  have hdigits := isWord_paddedDigits 4 year.natAbs
  simp only [yearChars]
  split
  · exact hdigits.cons (by decide)
  · split
    · exact hdigits.cons (by decide)
    · exact hdigits

theorem isWord_monthName {month : Nat} (hpos : 1 ≤ month) (hle : month ≤ 12) :
    IsWord (monthName month).toList ∧ IsWord ((monthName month).toList.take 3) := by
  interval_cases month <;> decide

theorem isWord_weekdayName (w : Weekday) :
    IsWord w.name.toList ∧ IsWord (w.name.toList.take 3) := by
  cases w <;> decide

theorem not_isDigit_monthName {month : Nat} (hpos : 1 ≤ month) (hle : month ≤ 12) :
    ∀ c ∈ (monthName month).toList, c.isDigit = false := by
  have hall : (monthName month).toList.all (!·.isDigit) = true := by
    interval_cases month <;> rfl
  simpa using hall

theorem not_isDigit_weekdayName (w : Weekday) : ∀ c ∈ w.name.toList, c.isDigit = false := by
  have hall : w.name.toList.all (!·.isDigit) = true := by
    cases w <;> rfl
  simpa using hall

/-- What is written for a field is a word. -/
theorem Field.isWord_written (m : Moment) (field : Field) : IsWord (field.written m) := by
  have hmonth := isWord_monthName m.date.month_pos m.date.month_le
  have hweekday := isWord_weekdayName m.date.weekday
  cases field with
  | year => exact isWord_yearChars _
  | monthShort => exact hmonth.2
  | monthLong => exact hmonth.1
  | weekdayShort => exact hweekday.2
  | weekdayLong => exact hweekday.1
  | half =>
    rw [written]
    split <;> decide
  | _ => exact isWord_paddedDigits 2 _

end Words

/-! ## What has been said -/

/-- What the tokens read so far say of a moment. -/
def said (m : Moment) (tokens : List Token) : Fields where
  year := if .field .year ∈ tokens then some m.date.year else none
  month := if .field .month ∈ tokens ∨ .field .monthShort ∈ tokens ∨ .field .monthLong ∈ tokens then
      some m.date.month else none
  day := if .field .day ∈ tokens then some m.date.day else none
  weekday := if .field .weekdayShort ∈ tokens ∨ .field .weekdayLong ∈ tokens then
      some m.date.weekday else none
  afternoon := if .field .hour ∈ tokens ∨ .field .half ∈ tokens then
      some (decide (12 ≤ m.time.hour)) else none
  hourOfHalf := if .field .hour ∈ tokens ∨ .field .hourOfHalf ∈ tokens then
      some (m.time.hour % 12) else none
  minute := if .field .minute ∈ tokens then some m.time.minute else none
  second := if .field .second ∈ tokens then some m.time.second else none

theorem said_nil (m : Moment) : said m [] = {} := by
  simp [said]

theorem said_literal (m : Moment) (c : Char) (tokens : List Token) :
    said m (.literal c :: tokens) = said m tokens := by
  simp [said]

/-- What has been said can be said again. -/
theorem agree?_ite {α : Type} [DecidableEq α] (p : Prop) [Decidable p] (value : α) :
    agree? (if p then some value else none) value = some (some value) := by
  by_cases h : p <;> simp [agree?, h]

/-- A number within the bounds of its field is read and kept. -/
theorem readPair?_within? {min max n : Nat} (hmin : min ≤ n) (hmax : n ≤ max) (hlimit : max < 100)
    (rest : List Char) :
    readPair? (Text.paddedDigits 2 n ++ rest) = some (n, rest) ∧ within? min max n = some n := by
  refine ⟨readPair?_append (Nat.lt_of_le_of_lt hmax hlimit) rest, ?_⟩
  simp [within?, hmin, hmax]

/-- A field is read from what is written for it, and then it has been said. -/
theorem readField?_written {m : Moment} {field : Field} (hfield : field ≠ .yearOfCentury)
    {rest : List Char} (hyear : field = .year →
      (0 ≤ m.date.year ∧ m.date.year ≤ 9999) ∨ ∀ c ∈ rest.head?, c.isDigit = false)
    (tokens : List Token) :
    (said m tokens).readField? field (field.written m ++ rest) =
      some (said m (.field field :: tokens), rest) := by
  cases field with
  | year =>
    have hmin : ¬(m.date.year < Text.minInt32 ∨ Text.maxInt32 < m.date.year) := by
      have hlow := m.date.minYear_le
      have hhigh := m.date.le_maxYear
      simp only [minYear, maxYear, Text.minInt32, Text.maxInt32] at hlow hhigh ⊢
      omega
    simp [Fields.readField?, Field.written, readYear?_append (hyear rfl), hmin, said, agree?_ite]
  | yearOfCentury => exact absurd rfl hfield
  | month =>
    have hread := readPair?_within? m.date.month_pos m.date.month_le (by decide) rest
    simp [Fields.readField?, Field.written, hread, said, agree?_ite]
  | monthShort =>
    have hread := readMonthName?_short m.date.month_pos m.date.month_le rest
    simp [Fields.readField?, Field.written, hread, said, agree?_ite]
  | monthLong =>
    have hread := readMonthName?_long m.date.month_pos m.date.month_le rest
    simp [Fields.readField?, Field.written, hread, said, agree?_ite]
  | day =>
    have hday : m.date.day ≤ 31 := Nat.le_trans m.date.day_le (daysInMonth_le _ _)
    have hread := readPair?_within? m.date.day_pos hday (by decide) rest
    simp [Fields.readField?, Field.written, hread, said, agree?_ite]
  | hour =>
    have hhour : m.time.hour ≤ 23 := Nat.le_of_lt_succ m.time.hour_lt
    have hread := readPair?_within? (Nat.zero_le _) hhour (by decide) rest
    simp [Fields.readField?, Fields.setHour?, Field.written, hread, said, agree?_ite]
  | hourOfHalf =>
    obtain ⟨hpos, hle⟩ := clockHour_bounds m.time.hour
    have hread := readPair?_within? hpos hle (by decide) rest
    simp [Fields.readField?, Field.written, hread, clockHour_mod, said, agree?_ite]
  | minute =>
    have hminute : m.time.minute ≤ 59 := Nat.le_of_lt_succ m.time.minute_lt
    have hread := readPair?_within? (Nat.zero_le _) hminute (by decide) rest
    simp [Fields.readField?, Field.written, hread, said, agree?_ite]
  | second =>
    have hread := readPair?_within? (Nat.zero_le _) m.time.second_le (by decide) rest
    simp [Fields.readField?, Field.written, hread, said, agree?_ite]
  | half =>
    have hread : readHalf? (Field.half.written m ++ rest) =
        some (decide (12 ≤ m.time.hour), rest) := by
      rw [Field.written]
      by_cases hearly : m.time.hour < 12
      · rw [if_pos hearly, decide_eq_false (Nat.not_le.mpr hearly)]
        rfl
      · rw [if_neg hearly, decide_eq_true (Nat.not_lt.mp hearly)]
        rfl
    simp [Fields.readField?, hread, said, agree?_ite]
  | weekdayShort =>
    have hread := readWeekdayName?_short m.date.weekday rest
    simp [Fields.readField?, Field.written, hread, said, agree?_ite]
  | weekdayLong =>
    have hread := readWeekdayName?_long m.date.weekday rest
    simp [Fields.readField?, Field.written, hread, said, agree?_ite]

end Pattern

end MeetingCalendar
