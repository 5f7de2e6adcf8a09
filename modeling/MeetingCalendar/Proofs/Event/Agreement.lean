import MeetingCalendar.Proofs.Event.Refusal
import MeetingCalendar.Proofs.Request.Relaxation
import MeetingCalendar.Proofs.Request.Rules
import MeetingCalendar.Proofs.Request.Strictness

/-!
# Creating and updating agree

A request that is good enough to create an event can also be applied to one that does not repeat.
Creating reads a null as no value, updating reads it as the wish to empty a field; creating makes a
recurrence from its parts alone, updating falls back on the recurrence that the event has.  On the
supplied fields both come to the same values, and the update leaves all other fields as they were.
-/

namespace MeetingCalendar

/-- The event with some of its fields from another; whether it repeats and how are one field. -/
def Event.withFieldsOf (e other : Event) (supplied : String → Bool) : Event where
  title := if supplied Parameter.title then other.title else e.title
  description := if supplied Parameter.description then other.description else e.description
  location := if supplied Parameter.location then other.location else e.location
  startDate := if supplied Parameter.startDate then other.startDate else e.startDate
  endDate := if supplied Parameter.endDate then other.endDate else e.endDate
  duration := if supplied Parameter.duration then other.duration else e.duration
  entityType := if supplied Parameter.typeId then other.entityType else e.entityType
  repeating := if supplied Parameter.repeating then other.repeating else e.repeating
  recurrence := if supplied Parameter.repeating then other.recurrence else e.recurrence
  remindBy := if supplied Parameter.remindById then other.remindBy else e.remindBy
  firstReminderOffset := if supplied Parameter.firstReminderOffset then other.firstReminderOffset
    else e.firstReminderOffset
  secondReminderOffset := if supplied Parameter.secondReminderOffset then
    other.secondReminderOffset else e.secondReminderOffset
  meetingTime := if supplied Parameter.meetingTime then other.meetingTime else e.meetingTime

theorem Reading.missing_or_value {α : Type} {reading : Reading α} {P : α → Prop}
    (h : reading.isMissing = true ∨ ∃ v, reading.value? = some v ∧ P v) :
    reading.isMissing = true ∨ ∃ v, reading.value? = some v :=
  h.imp_right fun ⟨v, hv, _⟩ ↦ ⟨v, hv⟩

namespace Request

variable {policy : RequestPolicy} {mode : Mode} {r : Request}

/-! ## Validity -/

/-- A request that moves no meeting keeps the rules of updates if it keeps those of creation. -/
theorem Valid.update_of_create (h : r.Valid policy .create)
    (hmoves : ∀ name ∈ Parameter.rescheduleGroup, r.has name = false) : r.Valid policy .update := by
  rw [← violations_eq_nil_iff, violations_update hmoves, violations_eq_nil_iff.mpr h,
    List.filter_nil]

/-! ## Fields -/

theorem Valid.endDate_missing_or_value (h : r.Valid policy mode) :
    (r.date Parameter.endDate).isMissing = true ∨
      ∃ stop, (r.date Parameter.endDate).value? = some stop := by
  cases hhas : r.has Parameter.endDate with
  | true =>
    obtain ⟨stop, hstop, -⟩ := h.endDate hhas
    exact .inr ⟨stop, hstop⟩
  | false =>
    left
    apply Reading.isMissing_of_isAbsent
    rw [isAbsent_date, hhas]
    rfl

/-- What an update makes of an optional field that is not of the wrong kind. -/
theorem getD_map_patch? {α β : Type} {name : String} {reading : Reading α}
    (habsent : reading.isAbsent = !r.has name)
    (hvalid : reading.isMissing = true ∨ ∃ v, reading.value? = some v)
    (f : Option α → β) (old : β) :
    (reading.patch?.map f).getD old = if r.has name then f reading.value? else old := by
  cases reading with
  | absent =>
    have hhas : r.has name = false := by simpa [Reading.isAbsent] using habsent
    rw [hhas]
    rfl
  | invalid raw expected => simp [Reading.isMissing, Reading.value?] at hvalid
  | null =>
    have hhas : r.has name = true := by simpa [Reading.isAbsent] using habsent
    rw [if_pos hhas]
    rfl
  | value v raw =>
    have hhas : r.has name = true := by simpa [Reading.isAbsent] using habsent
    rw [if_pos hhas]
    rfl

/-- An optional field that is supplied gets the value that creation reads. -/
theorem getD_patch? {α : Type} {name : String} {reading : Reading α}
    (habsent : reading.isAbsent = !r.has name)
    (hvalid : reading.isMissing = true ∨ ∃ v, reading.value? = some v) (old : Option α) :
    reading.patch?.getD old = if r.has name then reading.value? else old := by
  have h := getD_map_patch? habsent hvalid id old
  rwa [Option.map_id_fun, id, id] at h

theorem choice?_of_entityType {entityType : EntityType} (h : r.entityType = .ok entityType) :
    r.choice? EntityType Parameter.typeId = .ok (some entityType) := by
  obtain ⟨code, hcode, hchoice⟩ := Except.bind_eq_ok_iff.mp h
  unfold choice?
  rw [required_eq_ok_iff.mp hcode]
  exact Except.map_eq_ok_iff.mpr ⟨entityType, hchoice, rfl⟩

/-! ## Repeating -/

/-- The parts that make the recurrence of a new event make it of an event without one. -/
theorem exists_apply_of_recurrence {start : Date} {found : Recurrence}
    (h : r.recurrence start = .ok found) :
    ∃ patch, r.recurrencePatch = .ok patch ∧ patch.apply none start = .ok found := by
  obtain ⟨patch, hpatch, hmade⟩ := Except.bind_eq_ok_iff.mp h
  refine ⟨patch, hpatch, Except.mapError_eq_ok_iff.mpr ?_⟩
  split at hmade
  · cases hmade
  · rwa [Option.map_none, Option.or_none]

/-- An event that does not repeat comes to repeat as a new event does. -/
theorem exists_repeatUpdate?_of_recurrence? (h : r.Valid policy .create) {start : Date}
    {found : Option Recurrence} (hfound : r.recurrence? start = .ok found) :
    ∃ change, r.repeatUpdate? = .ok change ∧
      ∀ e : Event, e.startDate = start → e.recurrence = none → e.setRepeating change = .ok { e with
        repeating := if r.has Parameter.repeating then found.isSome else e.repeating
        recurrence := if r.has Parameter.repeating then found else e.recurrence } := by
  unfold repeatUpdate?
  cases hvalue : (r.boolean Parameter.repeating).value? with
  | none =>
    have hhas : r.has Parameter.repeating = false := by
      rw [← Bool.not_eq_true]
      intro hhas
      obtain ⟨b, hb⟩ := h.repeating hhas
      rw [hvalue] at hb
      cases hb
    refine ⟨none, rfl, fun e _ _ ↦ ?_⟩
    rw [hhas]
    rfl
  | some repeats =>
    have hhas : r.has Parameter.repeating = true :=
      has_of_value? (r.isAbsent_boolean _) hvalue
    cases repeats with
    | false =>
      have hset : r.isSet Parameter.repeating = false := by simp [isSet, hvalue]
      rcases recurrence?_eq_ok_iff.mp hfound with ⟨hset', -⟩ | ⟨-, rfl⟩
      · rw [hset] at hset'
        cases hset'
      refine ⟨some .off, rfl, fun e _ _ ↦ ?_⟩
      rw [hhas]
      rfl
    | true =>
      have hset : r.isSet Parameter.repeating = true := isSet_iff.mpr hvalue
      rcases recurrence?_eq_ok_iff.mp hfound with ⟨-, made, hmade, rfl⟩ | ⟨hset', -⟩
      · obtain ⟨patch, hpatch, happly⟩ := exists_apply_of_recurrence hmade
        refine ⟨some (.on patch), Except.map_eq_ok_iff.mpr ⟨patch, hpatch, rfl⟩, ?_⟩
        intro e hstart hnone
        refine Except.map_eq_ok_iff.mpr ⟨made, ?_, ?_⟩
        · rw [hstart, hnone, happly]
        · rw [hhas]
          rfl
      · rw [hset] at hset'
        cases hset'

/-! ## Updates -/

theorem dates_of_toEvent {created : Event} (h : r.toEvent = .ok created) :
    (r.date Parameter.startDate).value? = some created.startDate ∧
      (r.date Parameter.endDate).value? = created.endDate := by
  obtain ⟨title, start, entityType, remindBy, found, -, hstart, -, -, -, rfl⟩ :=
    toEvent_eq_ok_iff.mp h
  exact ⟨hstart, rfl⟩

theorem recurrence?_of_toEvent {created : Event} (h : r.toEvent = .ok created) :
    r.recurrence? created.startDate = .ok created.recurrence ∧
      created.repeating = created.recurrence.isSome := by
  obtain ⟨title, start, entityType, remindBy, found, -, -, -, -, hfound, rfl⟩ :=
    toEvent_eq_ok_iff.mp h
  exact ⟨hfound, rfl⟩

theorem repeatUpdate?_of_toUpdate {u : EventUpdate} (h : r.toUpdate = .ok u) :
    r.repeatUpdate? = .ok u.repeating := by
  obtain ⟨entityType, remindBy, change, -, -, hchange, rfl⟩ := toUpdate_eq_ok_iff.mp h
  exact hchange

/-- Apart from the repeating, an update sets the supplied fields to those of the created event. -/
theorem setFields_withFieldsOf {created : Event} {u : EventUpdate} (h : r.Valid policy .create)
    (hcreated : r.toEvent = .ok created) (hu : r.toUpdate = .ok u) (e : Event) :
    e.setFields u = { e.withFieldsOf created r.has with
      repeating := e.repeating, recurrence := e.recurrence } := by
  obtain ⟨title, start, entityType, remindBy, found, htitle, hstart, htype, hremind, -, rfl⟩ :=
    toEvent_eq_ok_iff.mp hcreated
  obtain ⟨entityType', remindBy', change, htype', hremind', -, rfl⟩ := toUpdate_eq_ok_iff.mp hu
  obtain rfl : some entityType = entityType' :=
    Except.ok.inj ((choice?_of_entityType htype).symm.trans htype')
  obtain rfl : remindBy = remindBy' := Except.ok.inj (hremind.symm.trans hremind')
  obtain ⟨code, hcode, -⟩ := h.entityType (r.isChecked_create _)
  have hfirst := h.offset Parameter.firstReminderOffset (by decide)
  have hsecond := h.offset Parameter.secondReminderOffset (by decide)
  simp only [Event.setFields, Event.withFieldsOf, Event.mk.injEq]
  rw [getD_patch? (r.isAbsent_text _) (Reading.missing_or_value h.description),
    getD_patch? (r.isAbsent_text _) (Reading.missing_or_value h.location),
    getD_patch? (r.isAbsent_date _) h.endDate_missing_or_value,
    getD_patch? (r.isAbsent_integer _) h.duration,
    getD_patch? (r.isAbsent_integer _) (Reading.missing_or_value hfirst),
    getD_patch? (r.isAbsent_integer _) (Reading.missing_or_value hsecond),
    getD_patch? (r.isAbsent_time _) h.meetingTime,
    getD_map_patch? (r.isAbsent_integer _) (Reading.missing_or_value h.remindBy),
    htitle, hstart, has_of_value? (r.isAbsent_text _) htitle,
    has_of_value? (r.isAbsent_date _) hstart, has_of_value? (r.isAbsent_integer _) hcode]
  simp only [Option.getD_some, if_true, and_self]

/-- The start date is that of the created event, and the end date is not before it. -/
theorem start_le_end_withFieldsOf {e created : Event} (h : r.Valid policy .create)
    (hcreated : r.toEvent = .ok created)
    (hend : r.has Parameter.endDate = true ∨ ∀ stop, e.endDate = some stop →
      ∀ start, (r.date Parameter.startDate).value? = some start → start ≤ stop) :
    ∀ stop, (e.withFieldsOf created r.has).endDate = some stop →
      (e.withFieldsOf created r.has).startDate ≤ stop := by
  obtain ⟨hstart, hstopDate⟩ := dates_of_toEvent hcreated
  intro stop hstop
  simp only [Event.withFieldsOf] at hstop ⊢
  rw [if_pos (has_of_value? (r.isAbsent_date _) hstart)]
  cases hhas : r.has Parameter.endDate with
  | true =>
    rw [if_pos hhas] at hstop
    obtain ⟨stop', hstop', horder⟩ := h.endDate hhas
    obtain rfl : stop = stop' := by
      rw [hstopDate, hstop] at hstop'
      exact Option.some.inj hstop'
    exact horder _ hstart
  | false =>
    rw [hhas] at hstop hend
    exact hend.resolve_left Bool.false_ne_true stop hstop _ hstart

/-- A request that creates an event updates one that does not repeat to the same supplied fields. -/
theorem updated_withFieldsOf {e created : Event} (h : r.Valid policy .create)
    (hmoves : ∀ name ∈ Parameter.rescheduleGroup, r.has name = false)
    (hcreated : r.toEvent = .ok created) (hone : e.recurrence = none)
    (hend : r.has Parameter.endDate = true ∨ ∀ stop, e.endDate = some stop →
      ∀ start, (r.date Parameter.startDate).value? = some start → start ≤ stop) :
    ∃ u, r.toUpdate = .ok u ∧ e.updated u = .ok (e.withFieldsOf created r.has) := by
  obtain ⟨u, hu, hreschedule, -⟩ := toUpdate_of_valid (h.update_of_create hmoves)
  have hstay : u.reschedule = none := by
    rw [hreschedule, reschedule?, isSet_eq_false_of_has (hmoves _ List.mem_cons_self)]
    rfl
  have hrepeat : (e.setFields u).setRepeating u.repeating = .ok (e.withFieldsOf created r.has) := by
    obtain ⟨hstart, -⟩ := dates_of_toEvent hcreated
    obtain ⟨hfound, hrepeating⟩ := recurrence?_of_toEvent hcreated
    obtain ⟨change, hchange, hrepeat⟩ := exists_repeatUpdate?_of_recurrence? h hfound
    obtain rfl : change = u.repeating :=
      Except.ok.inj (hchange.symm.trans (repeatUpdate?_of_toUpdate hu))
    have hfields := setFields_withFieldsOf h hcreated hu e
    have hstartDate : (e.setFields u).startDate = created.startDate := by
      rw [hfields]
      exact if_pos (has_of_value? (r.isAbsent_date _) hstart)
    rw [hrepeat _ hstartDate hone, hfields, ← hrepeating]
    rfl
  have horder := start_le_end_withFieldsOf h hcreated hend
  refine ⟨u, hu, Event.updated_eq_ok_iff.mpr ⟨?_, _, hrepeat, ?_, horder⟩⟩
  · rw [hstay]
    rfl
  · rw [hstay]
    rfl

end Request

namespace RequestPolicy

variable {policy : RequestPolicy} {e : Event} {body : String} {r : Request}

theorem updateEvent_eq_ok {u : EventUpdate} {e' : Event} (hrequest : policy.request body = .ok r)
    (hvalid : r.Valid policy .update) (hu : r.toUpdate = .ok u) (he' : e.updated u = .ok e') :
    policy.updateEvent e body = .ok (e', e.changesTo e') := by
  unfold updateEvent
  rw [Except.bind_of_eq_ok hrequest,
    Except.bind_of_eq_ok (Request.validate_eq_ok_iff.mpr hvalid), Except.bind_of_eq_ok hu]
  exact Event.update_eq_ok_iff.mpr ⟨he', rfl⟩

/-- A request that is accepted to create an event, moves no meeting and leaves the event in order
can be applied to an event that does not repeat.  The supplied fields become those of the created
event, the others stay. -/
theorem updateEvent_eq_createEvent (hrequest : policy.request body = .ok r)
    (hvalid : policy.validateBody .create body = .ok ())
    (hmoves : ∀ name ∈ Parameter.rescheduleGroup, r.has name = false)
    (hone : e.recurrence = none)
    (hend : r.has Parameter.endDate = true ∨ ∀ stop, e.endDate = some stop →
      ∀ start, (r.date Parameter.startDate).value? = some start → start ≤ stop) :
    ∃ created, policy.createEvent body = .ok created ∧
      policy.updateEvent e body = .ok (e.withFieldsOf created r.has,
        e.changesTo (e.withFieldsOf created r.has)) := by
  obtain ⟨r', hrequest', hvalidate⟩ := Except.bind_eq_ok_iff.mp hvalid
  obtain rfl : r = r' := Except.ok.inj (hrequest.symm.trans hrequest')
  have hcreate := Request.validate_eq_ok_iff.mp hvalidate
  obtain ⟨created, hcreated⟩ := Request.toEvent_of_valid hcreate
  obtain ⟨u, hu, hupdated⟩ := Request.updated_withFieldsOf hcreate hmoves hcreated hone hend
  refine ⟨created, ?_, updateEvent_eq_ok hrequest (hcreate.update_of_create hmoves) hu hupdated⟩
  unfold createEvent
  rw [Except.bind_of_eq_ok hrequest, Except.bind_of_eq_ok hvalidate, hcreated]

/-- A meeting that is described anew: it comes to repeat on last Fridays until the end of the year,
its description goes, its place stays. -/
theorem updateEvent_eq_createEvent_last_friday :
    let policy : RequestPolicy := {}
    let start : Date := (Date.ofParts? 2024 1 5).get (by decide)
    let e : Event := { title := "Meeting", description := some "Once", location := some "Hall",
                       startDate := start, entityType := .groups }
    let body := "\x7b\"title\":\"Center meeting\",\"startDate\":\"2024-01-26\",\"typeId\":4," ++
      "\"endDate\":\"2024-12-31\",\"description\":null,\"repeating\":true,\"frequency\":3," ++
      "\"repeatsOnLastWeekdayOfMonth\":5\x7d"
    ∃ r, (policy.request body = .ok r ∧ policy.validateBody .create body = .ok () ∧
        (∀ name ∈ Parameter.rescheduleGroup, r.has name = false) ∧ e.recurrence = none ∧
        r.has Parameter.endDate = true) ∧
      ∃ created, policy.createEvent body = .ok created ∧
        policy.updateEvent e body = .ok (e.withFieldsOf created r.has,
          e.changesTo (e.withFieldsOf created r.has)) := by
  intro policy start e body
  have hread : (policy.request body).toOption.any (fun r ↦ (r.validate policy .create).isOk &&
      (Parameter.rescheduleGroup.all (!r.has ·) && r.has Parameter.endDate)) = true := by
    decide +kernel
  cases hrequest : policy.request body with
  | error err =>
    rw [hrequest] at hread
    cases hread
  | ok r =>
    rw [hrequest] at hread
    simp only [Except.toOption, Option.any_some, Bool.and_eq_true, List.all_eq_true,
      Bool.not_eq_true'] at hread
    obtain ⟨hisOk, hmoves, hend⟩ := hread
    obtain ⟨⟨⟩, hvalidate⟩ := Except.exists_eq_ok_of_isOk hisOk
    have hvalid : policy.validateBody .create body = .ok () := by
      rw [validateBody, Except.bind_of_eq_ok hrequest, hvalidate]
    exact ⟨r, ⟨rfl, hvalid, hmoves, rfl, hend⟩,
      updateEvent_eq_createEvent hrequest hvalid hmoves rfl (.inl hend)⟩

end RequestPolicy

end MeetingCalendar
