import MeetingCalendar.Handling
import MeetingCalendar.Proofs.Event.Update
import MeetingCalendar.Proofs.Request.Event
import MeetingCalendar.Proofs.Request.Recurrence

/-!
# Why a valid update is refused

Validation of an update looks at the request alone, so an update that passes it can still be refused
for what the event is: it does not meet on the date of the meeting to move, or it would end before
it starts.  There is no other reason.  In particular every valid request can be read, and what it
says of repeating makes a recurrence of whatever recurrence the event has.
-/

namespace MeetingCalendar

namespace Event

variable {e next : Event} {u : EventUpdate} {error : CalendarError}

/-! ## Refusals -/

/-- The date on which an update leaves an event to start. -/
def startAfter (e : Event) (u : EventUpdate) : Date :=
  match u.reschedule with
  | some move => move.new
  | none => u.startDate.getD e.startDate

/-- The violations for which an event refuses an update. -/
inductive Refuses (e : Event) (u : EventUpdate) : Violation → Prop where
  | notAnOccurrence {move : Reschedule} (hmove : u.reschedule = some move)
      (hmeets : e.isMeetingDate move.present = false) :
      Refuses e u ⟨Parameter.presentMeetingDate, encode move.present, .notAnOccurrence⟩
  | beforeStartDate {stop : Date} (hstop : u.endDate.getD e.endDate = some stop)
      (hlt : stop < e.startAfter u) :
      Refuses e u ⟨Parameter.endDate, encode stop, .beforeStartDate⟩

theorem checkReschedule_eq_error {reschedule : Option Reschedule}
    (h : e.checkReschedule reschedule = .error error) :
    ∃ move, reschedule = some move ∧ e.isMeetingDate move.present = false ∧
      error = .rejected (.calendar
        [⟨Parameter.presentMeetingDate, encode move.present, .notAnOccurrence⟩]) := by
  unfold checkReschedule at h
  cases reschedule with
  | none => cases h
  | some move =>
    cases hmeets : e.isMeetingDate move.present with
    | true =>
      simp only [hmeets, if_true] at h
      cases h
    | false =>
      simp only [hmeets, Bool.false_eq_true, if_false] at h
      exact ⟨move, rfl, hmeets, (Violation.toResult_eq_error_iff.mp h).2⟩

theorem checkOrder_eq_error (h : e.checkOrder = .error error) :
    ∃ stop, e.endDate = some stop ∧ stop < e.startDate ∧
      error = .rejected (.calendar [⟨Parameter.endDate, encode stop, .beforeStartDate⟩]) := by
  unfold checkOrder at h
  cases hstop : e.endDate with
  | none =>
    rw [hstop] at h
    cases h
  | some stop =>
    rw [hstop] at h
    by_cases hlt : stop < e.startDate
    · simp only [hlt, if_true] at h
      exact ⟨stop, rfl, hlt, (Violation.toResult_eq_error_iff.mp h).2⟩
    · simp only [hlt, if_false] at h
      cases h

/-- A patch whose parts are usable makes an event repeat. -/
theorem exists_setRepeating {change : Option RepeatUpdate}
    (h : ∀ patch, change = some (.on patch) → patch.Usable) :
    ∃ next, e.setRepeating change = .ok next := by
  cases change with
  | none => exact ⟨_, rfl⟩
  | some change =>
    cases change with
    | off => exact ⟨_, rfl⟩
    | on patch =>
      obtain ⟨r, hr⟩ := (h patch rfl).exists_make e.recurrence e.startDate
      have happly : patch.apply e.recurrence e.startDate = .ok r :=
        Except.mapError_eq_ok_iff.mpr hr
      exact ⟨_, Except.map_eq_ok_iff.mpr ⟨r, happly, rfl⟩⟩

/-- The dates with which an update leaves an event, whatever becomes of its repeating. -/
theorem dates_of_setRepeating (h : (e.setFields u).setRepeating u.repeating = .ok next) :
    (next.movedBy u.reschedule).endDate = u.endDate.getD e.endDate ∧
      (next.movedBy u.reschedule).startDate = e.startAfter u := by
  have hframe := eq_of_setRepeating h
  have hend : next.endDate = u.endDate.getD e.endDate := congrArg Event.endDate hframe
  have hstart : next.startDate = u.startDate.getD e.startDate := congrArg Event.startDate hframe
  unfold startAfter
  cases u.reschedule with
  | none => exact ⟨hend, hstart⟩
  | some move => exact ⟨hend, rfl⟩

theorem updated_eq_error_of_checkOrder (hcheck : e.checkReschedule u.reschedule = .ok ())
    (hnext : (e.setFields u).setRepeating u.repeating = .ok next)
    (horder : (next.movedBy u.reschedule).checkOrder = .error error) :
    e.updated u = .error error := by
  unfold updated
  simp only [Except.bind_eq_error_iff]
  exact .inr ⟨(), hcheck, .inr ⟨next, hnext, .inl horder⟩⟩

/-- An update with a usable patch succeeds, or is refused for a single violation. -/
theorem update_or_refuses (e : Event) (h : ∀ patch, u.repeating = some (.on patch) → patch.Usable) :
    (∃ e' changes, e.update u = .ok (e', changes)) ∨
      ∃ v, e.update u = .error (.rejected (.calendar [v])) ∧ e.Refuses u v := by
  obtain ⟨next, hnext⟩ := exists_setRepeating (e := e.setFields u) h
  obtain ⟨hend, hstart⟩ := dates_of_setRepeating hnext
  cases hcheck : e.checkReschedule u.reschedule with
  | error error =>
    obtain ⟨move, hmove, hmeets, rfl⟩ := checkReschedule_eq_error hcheck
    have hrefused : e.updated u = .error _ := Except.bind_eq_error_iff.mpr (.inl hcheck)
    exact .inr ⟨_, Except.bind_eq_error_iff.mpr (.inl hrefused), .notAnOccurrence hmove hmeets⟩
  | ok _ =>
    cases horder : (next.movedBy u.reschedule).checkOrder with
    | error error =>
      obtain ⟨stop, hstop, hlt, rfl⟩ := checkOrder_eq_error horder
      have hrefused : e.updated u =
          .error (.rejected (.calendar [⟨Parameter.endDate, encode stop, .beforeStartDate⟩])) :=
        updated_eq_error_of_checkOrder hcheck hnext horder
      exact .inr ⟨_, Except.bind_eq_error_iff.mpr (.inl hrefused),
        .beforeStartDate (hend ▸ hstop) (hstart ▸ hlt)⟩
    | ok _ =>
      have hupdated : e.updated u = .ok (next.movedBy u.reschedule) :=
        updated_eq_ok_iff.mpr ⟨hcheck, next, hnext, rfl, checkOrder_eq_ok_iff.mp horder⟩
      exact .inl ⟨_, _, update_eq_ok_iff.mpr ⟨hupdated, rfl⟩⟩

/-- An update with a usable patch succeeds exactly when nothing speaks against it. -/
theorem exists_update_iff (h : ∀ patch, u.repeating = some (.on patch) → patch.Usable) :
    (∃ e' changes, e.update u = .ok (e', changes)) ↔ ∀ v, ¬e.Refuses u v := by
  constructor
  · intro ⟨e', changes, hupdate⟩ v hrefuses
    obtain ⟨hcheck, next, hnext, hmoved, horder⟩ :=
      updated_eq_ok_iff.mp (update_eq_ok_iff.mp hupdate).1
    obtain ⟨hend, hstart⟩ := dates_of_setRepeating hnext
    rw [hmoved] at hend hstart
    cases hrefuses with
    | notAnOccurrence hmove hmeets =>
      have hmeets' := checkReschedule_eq_ok_iff.mp hcheck _ hmove
      exact Bool.false_ne_true (hmeets.symm.trans hmeets')
    | beforeStartDate hstop hlt =>
      have hle := horder _ (hend.trans hstop)
      rw [hstart] at hle
      exact absurd hlt (Date.not_lt.mpr hle)
  · intro hnone
    rcases update_or_refuses e h with hupdate | ⟨v, -, hrefuses⟩
    · exact hupdate
    · exact absurd hrefuses (hnone v)

end Event

/-! ## Valid requests -/

namespace Request

variable {policy : RequestPolicy} {r : Request}

theorem isSet_iff {name : String} :
    r.isSet name = true ↔ (r.boolean name).value? = some true := by
  simp [isSet]

/-- A valid request moves a meeting exactly when it sets the flag. -/
theorem isSome_reschedule?_iff (h : r.ValidReschedule) :
    r.reschedule?.isSome = true ↔
      (r.boolean Parameter.rescheduleBasedOnMeetingDates).value? = some true := by
  rw [← isSet_iff]
  unfold reschedule?
  cases hset : r.isSet Parameter.rescheduleBasedOnMeetingDates with
  | false => simp
  | true =>
    obtain ⟨present, hpresent⟩ := h.dates Parameter.presentMeetingDate (by decide) (.inl hset)
    obtain ⟨new, hnew⟩ := h.dates Parameter.newMeetingDate (by decide) (.inl hset)
    simp [hpresent, hnew]

theorem exists_repeatUpdate? (h : r.Valid policy .update) :
    ∃ change, r.repeatUpdate? = .ok change ∧
      ∀ patch, change = some (.on patch) → patch.Usable := by
  unfold repeatUpdate?
  cases hrepeating : (r.boolean Parameter.repeating).value? with
  | none => exact ⟨none, rfl, fun _ heq ↦ absurd heq (Option.some_ne_none _).symm⟩
  | some repeats =>
    cases repeats with
    | false => exact ⟨some .off, rfl, fun _ heq ↦ by cases heq⟩
    | true =>
      have hvalid := h.recurrence (isSet_iff.mpr hrepeating)
      obtain ⟨patch, hpatch, -, husable⟩ := recurrencePatch_of_valid hvalid
      refine ⟨some (.on patch), Except.map_eq_ok_iff.mpr ⟨patch, hpatch, rfl⟩, ?_⟩
      intro patch' heq
      cases heq
      exact husable

/-- A valid request to update an event can be read. -/
theorem toUpdate_of_valid (h : r.Valid policy .update) :
    ∃ u, r.toUpdate = .ok u ∧ u.reschedule = r.reschedule? ∧
      ∀ patch, u.repeating = some (.on patch) → patch.Usable := by
  obtain ⟨entityType, htype⟩ : ∃ v, r.choice? EntityType Parameter.typeId = .ok v := by
    apply exists_choice?
    intro code hcode
    obtain ⟨n, hn, haccepts⟩ := h.entityType (isChecked_of_value? (r.isAbsent_integer _) hcode)
    obtain rfl : code = n := Option.some.inj (hcode.symm.trans hn)
    exact haccepts
  obtain ⟨remindBy, hremindBy⟩ : ∃ v, r.choice? RemindBy Parameter.remindById = .ok v :=
    exists_choice? (Reading.forall_of_isMissing_or h.remindBy)
  obtain ⟨repeating, hrepeating, husable⟩ := exists_repeatUpdate? h
  have hread := toUpdate_eq_ok_iff.mpr
    ⟨entityType, remindBy, repeating, htype, hremindBy, hrepeating, rfl⟩
  exact ⟨_, hread, rfl, husable⟩

end Request

namespace RequestPolicy

variable {policy : RequestPolicy}

/-- A request to update an event that passes validation can be read, and moves a meeting exactly
when it sets the flag.  Applied to any event it succeeds, or it is refused for a single violation,
which depends on the event: the event does not meet on the date to move from, or it would end before
it starts. -/
theorem updateEvent_of_validateBody (e : Event) {body : String}
    (h : policy.validateBody .update body = .ok ()) :
    ∃ r u, policy.request body = .ok r ∧ r.toUpdate = .ok u ∧
      (u.reschedule.isSome = true ↔
        (r.boolean Parameter.rescheduleBasedOnMeetingDates).value? = some true) ∧
      ((∃ e' changes, policy.updateEvent e body = .ok (e', changes)) ∨
        ∃ v, policy.updateEvent e body = .error (.rejected (.calendar [v])) ∧ e.Refuses u v) := by
  obtain ⟨r, hrequest, hvalidate⟩ := Except.bind_eq_ok_iff.mp h
  have hvalid := Request.validate_eq_ok_iff.mp hvalidate
  obtain ⟨u, hu, hreschedule, husable⟩ := Request.toUpdate_of_valid hvalid
  have hupdate : policy.updateEvent e body = e.update u := by
    unfold updateEvent
    rw [Except.bind_of_eq_ok hrequest, Except.bind_of_eq_ok hvalidate, Except.bind_of_eq_ok hu]
  refine ⟨r, u, hrequest, hu, ?_, ?_⟩
  · rw [hreschedule]
    exact Request.isSome_reschedule?_iff (hvalid.reschedule rfl)
  · rw [hupdate]
    exact e.update_or_refuses husable

/-- A request to repeat by the month until a date, for an event that starts later. -/
theorem updateEvent_of_validateBody_early_end :
    let policy : RequestPolicy := {}
    let start : Date := (Date.ofParts? 2024 1 26).get (by decide)
    let e : Event := { title := "Center meeting", startDate := start, entityType := .centers }
    let body := "\x7b\"repeating\": true, \"frequency\": 3, \"endDate\": \"2024-01-05\"\x7d"
    policy.validateBody .update body = .ok () ∧
      ∃ r u, policy.request body = .ok r ∧ r.toUpdate = .ok u ∧
        (u.reschedule.isSome = true ↔
          (r.boolean Parameter.rescheduleBasedOnMeetingDates).value? = some true) ∧
        ((∃ e' changes, policy.updateEvent e body = .ok (e', changes)) ∨
          ∃ v, policy.updateEvent e body = .error (.rejected (.calendar [v])) ∧
            e.Refuses u v) := by
  intro policy start e body
  have hisOk : (policy.validateBody .update body).isOk = true := by decide +kernel
  obtain ⟨_, hvalid⟩ := Except.exists_eq_ok_of_isOk hisOk
  exact ⟨hvalid, updateEvent_of_validateBody e hvalid⟩

end RequestPolicy

end MeetingCalendar
