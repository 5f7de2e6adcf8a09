import MeetingCalendar.Text.Integer

/-!
# Times of day

Hour, minute and second of a day; second 60 is a leap second.  The written form is `HH:MM:SS`.
-/

namespace MeetingCalendar

structure TimeOfDay where
  hour : Nat
  minute : Nat
  second : Nat
  hour_lt : hour < 24
  minute_lt : minute < 60
  second_le : second ≤ 60
  deriving DecidableEq, Repr

namespace TimeOfDay

def ofParts? (hour minute second : Nat) : Option TimeOfDay :=
  if h : hour < 24 ∧ minute < 60 ∧ second ≤ 60 then
    some ⟨hour, minute, second, h.1, h.2.1, h.2.2⟩
  else none

def toChars (t : TimeOfDay) : List Char :=
  Text.paddedDigits 2 t.hour ++ ':' :: Text.paddedDigits 2 t.minute ++
    ':' :: Text.paddedDigits 2 t.second

def toText (t : TimeOfDay) : String :=
  String.ofList t.toChars

instance : ToString TimeOfDay := ⟨toText⟩

@[simp]
theorem ofParts?_parts (t : TimeOfDay) : ofParts? t.hour t.minute t.second = some t := by
  unfold ofParts?
  rw [dif_pos ⟨t.hour_lt, t.minute_lt, t.second_le⟩]

end TimeOfDay

end MeetingCalendar
