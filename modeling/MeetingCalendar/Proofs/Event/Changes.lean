import Mathlib.Data.List.Flatten
import Mathlib.Data.List.Nodup
import MeetingCalendar.Proofs.Event.Update

/-!
# What an update changes and reports

The fields of an event stand in one table, `Event.fields`, with the name under which a change of
each is reported and what an update supplies for it.  An update sets the fields that it supplies,
works out the two that concern repeating, and reports the rows of the table in which the event
before and the event behind it differ.
-/

namespace MeetingCalendar

/-- The first date that an update gives an event: that of a move counts before a supplied one. -/
def EventUpdate.start? (u : EventUpdate) : Option Date :=
  (u.reschedule.map Reschedule.new).or u.startDate

/-- A field of an event.  What an update supplies for it is left out where an update works the
value out. -/
structure Event.Field where
  Value : Type
  name : String
  get : Event → Value
  supplied? : Option (EventUpdate → Option Value)
  isEmpty : Value → Bool
  [decidableEq : DecidableEq Value]
  [toEncode : Encode Value]
  encode_eq_null_iff : ∀ v, encode v = .null ↔ isEmpty v = true

namespace Event

namespace Field

attribute [instance] decidableEq toEncode

section Kinds

variable {α : Type} [DecidableEq α] [Encode α] (name : String)

/-- A field that always has a value. -/
def required (get : Event → α) (supplied? : Option (EventUpdate → Option α))
    (encode_ne_null : ∀ v : α, encode v ≠ .null := by exact fun _ ↦ Json.noConfusion) : Field where
  Value := α
  name := name
  get := get
  supplied? := supplied?
  isEmpty _ := false
  encode_eq_null_iff v := by simpa using encode_ne_null v

def optional (get : Event → Option α) (supplied? : Option (EventUpdate → Option (Option α)))
    (encode_ne_null : ∀ v : α, encode v ≠ .null := by exact fun _ ↦ Json.noConfusion) : Field where
  Value := Option α
  name := name
  get := get
  supplied? := supplied?
  isEmpty := Option.isNone
  encode_eq_null_iff
    | none => by simp [encode]
    | some v => ⟨fun h ↦ absurd h (encode_ne_null v), nofun⟩

end Kinds

def change (f : Field) (e next : Event) : Changes :=
  Event.change f.name (f.get e) (f.get next)

end Field

/-- The fields of an event, in the order in which changes of them are reported. -/
def fields : List Field :=
  [.required Parameter.title title (some EventUpdate.title),
    .optional Parameter.description description (some EventUpdate.description),
    .optional Parameter.location location (some EventUpdate.location),
    .required Parameter.startDate startDate (some EventUpdate.start?),
    .optional Parameter.endDate endDate (some EventUpdate.endDate),
    .optional Parameter.duration duration (some EventUpdate.duration),
    .required Parameter.typeId entityType (some EventUpdate.entityType),
    .required Parameter.repeating repeating none,
    .optional "recurrence" recurrence none,
    .optional Parameter.remindById remindBy (some EventUpdate.remindBy),
    .optional Parameter.firstReminderOffset firstReminderOffset
      (some EventUpdate.firstReminderOffset),
    .optional Parameter.secondReminderOffset secondReminderOffset
      (some EventUpdate.secondReminderOffset),
    .optional Parameter.meetingTime meetingTime (some EventUpdate.meetingTime)]

theorem nodup_map_name_fields : (fields.map Field.name).Nodup := by
  decide

variable {e e' : Event} {u : EventUpdate} {p : String × Json}

/-- Events that agree in every field are equal. -/
theorem eq_of_forall_get_eq (h : ∀ f ∈ fields, f.get e = f.get e') : e = e' := by
  simp only [fields, List.forall_mem_cons] at h
  cases e
  cases e'
  simp_all [Field.required, Field.optional]

/-! ## Reported changes -/

theorem Field.mem_change_iff {f : Field} :
    p ∈ f.change e e' ↔ f.get e ≠ f.get e' ∧ p = (f.name, encode (f.get e')) := by
  unfold Field.change Event.change
  by_cases h : f.get e = f.get e'
  · simp [h]
  · simp [h]

theorem Field.map_fst_change_sublist (f : Field) :
    ((f.change e e').map Prod.fst).Sublist [f.name] := by
  unfold Field.change Event.change
  split
  · exact List.nil_sublist _
  · exact List.Sublist.refl _

theorem changesTo_eq_flatMap (e e' : Event) :
    e.changesTo e' = fields.flatMap fun f ↦ f.change e e' := by
  simp only [changesTo, fields, List.flatMap_cons, List.flatMap_nil, List.append_nil,
    List.append_assoc]
  rfl

/-- A change is reported for each field in which the events differ, with its new value. -/
theorem mem_changesTo_iff :
    p ∈ e.changesTo e' ↔
      ∃ f ∈ fields, f.get e ≠ f.get e' ∧ p = (f.name, encode (f.get e')) := by
  rw [changesTo_eq_flatMap]
  simp only [List.mem_flatMap, Field.mem_change_iff]

/-- No two changes are reported under one name. -/
theorem nodup_map_fst_changesTo (e e' : Event) : ((e.changesTo e').map Prod.fst).Nodup := by
  have hsublist : ((e.changesTo e').map Prod.fst).Sublist (fields.map Field.name) := by
    rw [changesTo_eq_flatMap, List.map_flatMap, List.map_eq_flatMap]
    exact List.Sublist.flatMap_right fields fun f _ ↦ f.map_fst_change_sublist
  exact nodup_map_name_fields.sublist hsublist

/-- Nothing is reported only when nothing differs. -/
theorem changesTo_eq_nil_iff : e.changesTo e' = [] ↔ e' = e := by
  constructor
  · intro h
    refine (eq_of_forall_get_eq fun f hf ↦ Decidable.byContradiction fun hne ↦ ?_).symm
    have hmem := mem_changesTo_iff.mpr ⟨f, hf, hne, rfl⟩
    rw [h] at hmem
    cases hmem
  · rintro rfl
    refine List.eq_nil_iff_forall_not_mem.mpr fun p hp ↦ ?_
    obtain ⟨f, -, hne, -⟩ := mem_changesTo_iff.mp hp
    exact hne rfl

/-- A field is reported as null when it had a value and has none now. -/
theorem null_mem_changesTo_iff {f : Field} (hf : f ∈ fields) :
    (f.name, .null) ∈ e.changesTo e' ↔
      f.get e ≠ f.get e' ∧ f.isEmpty (f.get e') = true := by
  rw [mem_changesTo_iff]
  constructor
  · rintro ⟨f', hf', hne, hp⟩
    obtain ⟨hname, hnull⟩ := Prod.mk.inj hp
    obtain rfl : f = f' := List.inj_on_of_nodup_map nodup_map_name_fields hf hf' hname
    exact ⟨hne, (f.encode_eq_null_iff _).mp hnull.symm⟩
  · rintro ⟨hne, hempty⟩
    exact ⟨f, hf, hne, by rw [(f.encode_eq_null_iff _).mpr hempty]⟩

/-! ## Fields -/

/-- An updated event starts on the date that it is moved to, or on a supplied one. -/
theorem startDate_of_updated (h : e.updated u = .ok e') :
    e'.startDate = u.start?.getD e.startDate := by
  obtain ⟨-, next, hnext, rfl, -⟩ := updated_eq_ok_iff.mp h
  have hstart : next.startDate = u.startDate.getD e.startDate := by
    rw [eq_of_setRepeating hnext]
    rfl
  unfold EventUpdate.start?
  cases u.reschedule with
  | none => exact hstart
  | some move => rfl

/-- A field has the value that an update supplies, or the one that it had. -/
theorem get_of_updated (h : e.updated u = .ok e') :
    ∀ f ∈ fields, ∀ supplied, f.supplied? = some supplied →
      f.get e' = (supplied u).getD (f.get e) := by
  have hstart := startDate_of_updated h
  have hframe := eq_of_updated h
  generalize e'.startDate = start, e'.repeating = repeating, e'.recurrence = recurrence
    at hframe hstart
  subst hframe hstart
  simp [fields, Field.required, Field.optional, setFields]

/-- Without a word on repeating and without a move the recurrence stays. -/
theorem recurrence_of_updated (h : e.updated u = .ok e') (hrepeating : u.repeating = none)
    (hreschedule : u.reschedule = none) :
    e'.repeating = e.repeating ∧ e'.recurrence = e.recurrence := by
  obtain ⟨-, next, hnext, rfl, -⟩ := updated_eq_ok_iff.mp h
  rw [hrepeating] at hnext
  cases hnext
  rw [hreschedule]
  exact ⟨rfl, rfl⟩

/-- A successful update gives each field what it supplies and leaves the others, among them the
recurrence if nothing is said of it.  It reports the fields that differ then, each once and with its
new value, which is null for a field that lost its value; so it reports nothing when it does
nothing. -/
theorem changes_of_update {changes : Changes} (h : e.update u = .ok (e', changes)) :
    (∀ f ∈ fields, ∀ supplied, f.supplied? = some supplied →
      f.get e' = (supplied u).getD (f.get e)) ∧
    (u.repeating = none → u.reschedule = none →
      e'.repeating = e.repeating ∧ e'.recurrence = e.recurrence) ∧
    (changes.map Prod.fst).Nodup ∧
    (∀ p, p ∈ changes ↔
      ∃ f ∈ fields, f.get e ≠ f.get e' ∧ p = (f.name, encode (f.get e'))) ∧
    (∀ f ∈ fields, (f.name, .null) ∈ changes ↔
      f.get e ≠ f.get e' ∧ f.isEmpty (f.get e') = true) ∧
    (changes = [] ↔ e' = e) := by
  obtain ⟨hupdated, rfl⟩ := update_eq_ok_iff.mp h
  exact ⟨get_of_updated hupdated, recurrence_of_updated hupdated, nodup_map_fst_changesTo e e',
    fun _ ↦ mem_changesTo_iff, fun _ ↦ null_mem_changesTo_iff, changesTo_eq_nil_iff⟩

/-- A weekly meeting that moves from a Monday to a Wednesday, under its old title and without its
description. -/
theorem changes_of_update_monday :
    let start : Date := (Date.ofParts? 2024 1 1).get (by decide)
    let present : Date := (Date.ofParts? 2024 1 8).get (by decide)
    let new : Date := (Date.ofParts? 2024 1 10).get (by decide)
    let e : Event :=
      { title := "Group meeting", description := some "Once a week", startDate := start,
        entityType := .groups, repeating := true,
        recurrence := some ⟨1, .weekly (.singleton .monday), by decide, by decide, rfl⟩ }
    let u : EventUpdate :=
      { title := some "Group meeting", description := some none, reschedule := some ⟨present, new⟩ }
    ∃ e' changes, e.update u = .ok (e', changes) ∧
      (∀ f ∈ fields, ∀ supplied, f.supplied? = some supplied →
        f.get e' = (supplied u).getD (f.get e)) ∧
      (u.repeating = none → u.reschedule = none →
        e'.repeating = e.repeating ∧ e'.recurrence = e.recurrence) ∧
      (changes.map Prod.fst).Nodup ∧
      (∀ p, p ∈ changes ↔
        ∃ f ∈ fields, f.get e ≠ f.get e' ∧ p = (f.name, encode (f.get e'))) ∧
      (∀ f ∈ fields, (f.name, .null) ∈ changes ↔
        f.get e ≠ f.get e' ∧ f.isEmpty (f.get e') = true) ∧
      (changes = [] ↔ e' = e) := by
  intro start present new e u
  have hisOk : (e.update u).isOk = true := by decide +kernel
  obtain ⟨⟨e', changes⟩, h⟩ := Except.exists_eq_ok_of_isOk hisOk
  exact ⟨e', changes, h, changes_of_update h⟩

end Event

end MeetingCalendar
