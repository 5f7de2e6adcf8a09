import MeetingCalendar.Proofs.Event.Update
import MeetingCalendar.Handling
import MeetingCalendar.Proofs.Request.Event
import MeetingCalendar.Proofs.Request.Recurrence

/-!
# Events that conform to a policy

An event that was created and updated by requests under one policy keeps within the limits of the
policy, whatever requests there were and whichever of them were refused.  Some of this is due to the
checks on requests, some to the update itself, and some to the type of recurrences; the invariant
`Event.Conforms` holds all of it together.
-/

namespace MeetingCalendar

/-- The pattern is not that of a fifth weekday, which most months do not have. -/
def Repeat.AvoidsFifth (pattern : Repeat) : Prop :=
  ∀ weekday, pattern ≠ .monthly (.nth .fifth weekday)

/-- A recurrence that requests can make. -/
structure Recurrence.Regular (r : Recurrence) : Prop where
  one_le_interval : 1 ≤ r.interval
  interval_le : r.interval ≤ 65535
  exists_mem_of_weekly : ∀ days, r.pattern = .weekly days → ∃ day, day ∈ days
  avoidsFifth : r.pattern.AvoidsFifth

/-- An event within the limits of a policy. -/
structure Event.Conforms (policy : RequestPolicy) (e : Event) : Prop where
  title_not_blank : Text.isBlank e.title = false
  title_length_le : e.title.length ≤ policy.titleMaxLength
  description_length_le : ∀ s, e.description = some s → s.length ≤ policy.descriptionMaxLength
  location_length_le : ∀ s, e.location = some s → s.length ≤ policy.locationMaxLength
  start_le_end : ∀ stop, e.endDate = some stop → e.startDate ≤ stop
  repeating_eq : e.repeating = e.recurrence.isSome
  regular : ∀ r, e.recurrence = some r → r.Regular
  offset_pos : policy.offsetsOnUpdate = .positive →
    ∀ n, e.firstReminderOffset = some n ∨ e.secondReminderOffset = some n → 0 < n

/-- An update that keeps events within the limits of a policy. -/
structure EventUpdate.Conforms (policy : RequestPolicy) (u : EventUpdate) : Prop where
  title : ∀ s, u.title = some s → Text.isBlank s = false ∧ s.length ≤ policy.titleMaxLength
  description : ∀ s, u.description = some (some s) → s.length ≤ policy.descriptionMaxLength
  location : ∀ s, u.location = some (some s) → s.length ≤ policy.locationMaxLength
  repeating : ∀ patch, u.repeating = some (.on patch) →
    ∀ weekday, patch.monthlyDay ≠ some (.nth .fifth weekday)
  offset : policy.offsetsOnUpdate = .positive →
    ∀ n, u.firstReminderOffset = some (some n) ∨ u.secondReminderOffset = some (some n) → 0 < n

/-! ## Recurrences -/

/-- Only the fifth weekday is left to rule out, the rest holds of every recurrence. -/
theorem Recurrence.regular_of_avoidsFifth {r : Recurrence} (h : r.pattern.AvoidsFifth) :
    r.Regular where
  one_le_interval := r.interval_pos
  interval_le := r.interval_le
  exists_mem_of_weekly days hdays := by
    have hnonempty := r.hasDays
    rw [hdays, Repeat.hasDays, Bool.not_eq_true', WeekdaySet.isEmpty,
      List.isEmpty_eq_false_iff] at hnonempty
    obtain ⟨day, hday⟩ := List.exists_mem_of_ne_nil _ hnonempty
    exact ⟨day, WeekdaySet.mem_toList.mp hday⟩
  avoidsFifth := h

/-- Anchoring turns a fifth weekday into a last one. -/
theorem Repeat.avoidsFifth_anchoredOn (pattern : Repeat) (d : Date) :
    (pattern.anchoredOn d).AvoidsFifth := by
  rintro weekday h
  cases pattern with
  | monthly day =>
    cases day with
    | nth ordinal weekday' =>
      simp only [anchoredOn, MonthlyDay.anchoredOn] at h
      split at h
      · cases h
      · next hne _ =>
        cases h
        exact hne rfl
      · cases h
    | sameDay => cases h
    | last weekday' => cases h
  | _ => cases h

/-- A patch without a fifth weekday makes none of a recurrence without one. -/
theorem RecurrencePatch.avoidsFifth_pattern {patch : RecurrencePatch} {current : Option Recurrence}
    {start : Date} (hpatch : ∀ weekday, patch.monthlyDay ≠ some (.nth .fifth weekday))
    (hcurrent : ∀ r, current = some r → r.pattern.AvoidsFifth) :
    (patch.pattern current start).AvoidsFifth := by
  intro weekday hpattern
  unfold pattern at hpattern
  generalize (patch.frequency.or (current.map Recurrence.frequency)).getD .weekly = frequency
    at hpattern
  cases frequency with
  | monthly =>
    have hday := (Repeat.monthly.injEq _ _).mp hpattern
    cases hpatchDay : patch.monthlyDay with
    | some day =>
      rw [hpatchDay] at hday
      exact hpatch weekday (hpatchDay.trans (congrArg some hday))
    | none =>
      rw [hpatchDay, Option.none_or] at hday
      cases hcurrentDay : current.bind Recurrence.monthlyDay? with
      | some day =>
        rw [hcurrentDay] at hday
        obtain ⟨r, hr, hmonthly⟩ := Option.bind_eq_some_iff.mp hcurrentDay
        apply hcurrent r hr weekday
        rw [Recurrence.monthlyDay?_eq_some_iff.mp hmonthly]
        exact congrArg Repeat.monthly hday
      | none =>
        rw [hcurrentDay] at hday
        cases hday
  | _ => cases hpattern

namespace Event

variable {policy : RequestPolicy} {e : Event} {u : EventUpdate}

/-! ## Updates -/

theorem Conforms.repeating_of_setRepeating {next : Event} (h : e.Conforms policy)
    (hu : u.Conforms policy) (hnext : (e.setFields u).setRepeating u.repeating = .ok next) :
    next.repeating = next.recurrence.isSome ∧
      ∀ r, next.recurrence = some r → r.pattern.AvoidsFifth := by
  cases hrepeating : u.repeating with
  | none =>
    rw [hrepeating] at hnext
    cases hnext
    exact ⟨h.repeating_eq, fun r hr ↦ (h.regular r hr).avoidsFifth⟩
  | some change =>
    rw [hrepeating] at hnext
    cases change with
    | off =>
      cases hnext
      exact ⟨rfl, nofun⟩
    | on patch =>
      obtain ⟨made, hmade, rfl⟩ := Except.map_eq_ok_iff.mp hnext
      refine ⟨rfl, ?_⟩
      rintro r ⟨⟩
      obtain ⟨-, hpattern⟩ :=
        Recurrence.make_eq_ok_iff.mp (Except.mapError_eq_ok_iff.mp hmade)
      rw [hpattern]
      exact RecurrencePatch.avoidsFifth_pattern (hu.repeating patch hrepeating)
        fun r hr ↦ (h.regular r hr).avoidsFifth

theorem repeating_movedBy (e : Event) (reschedule : Option Reschedule)
    (h : e.repeating = e.recurrence.isSome) :
    (e.movedBy reschedule).repeating = (e.movedBy reschedule).recurrence.isSome := by
  cases reschedule with
  | none => exact h
  | some move => exact h.trans Option.isSome_map.symm

theorem avoidsFifth_movedBy (e : Event) (reschedule : Option Reschedule)
    (h : ∀ r, e.recurrence = some r → r.pattern.AvoidsFifth) :
    ∀ r, (e.movedBy reschedule).recurrence = some r → r.pattern.AvoidsFifth := by
  cases reschedule with
  | none => exact h
  | some move =>
    intro r hr
    obtain ⟨r', -, rfl⟩ := Option.map_eq_some_iff.mp hr
    exact r'.pattern.avoidsFifth_anchoredOn move.new

/-- A field that an update may set has its new value or the old one. -/
theorem getD_eq_or {α : Type} (new : Option α) (old : α) :
    new = some (new.getD old) ∨ new.getD old = old := by
  cases new with
  | none => exact .inr rfl
  | some v => exact .inl rfl

theorem eq_some_or_of_getD {α : Type} {new : Option (Option α)} {old : Option α} {v : α}
    (h : new.getD old = some v) : new = some (some v) ∨ old = some v := by
  rcases getD_eq_or new old with hnew | hold
  · exact .inl (h ▸ hnew)
  · exact .inr (hold ▸ h)

/-- An update within the limits keeps an event within the limits. -/
theorem Conforms.updated {e' : Event} (h : e.Conforms policy) (hu : u.Conforms policy)
    (hupdated : e.updated u = .ok e') : e'.Conforms policy := by
  have hframe := eq_of_updated hupdated
  have htitle : e'.title = u.title.getD e.title := congrArg Event.title hframe
  have hdescription : e'.description = u.description.getD e.description :=
    congrArg Event.description hframe
  have hlocation : e'.location = u.location.getD e.location := congrArg Event.location hframe
  have hfirst : e'.firstReminderOffset = u.firstReminderOffset.getD e.firstReminderOffset :=
    congrArg Event.firstReminderOffset hframe
  have hsecond : e'.secondReminderOffset = u.secondReminderOffset.getD e.secondReminderOffset :=
    congrArg Event.secondReminderOffset hframe
  obtain ⟨-, next, hnext, hmoved, horder⟩ := updated_eq_ok_iff.mp hupdated
  obtain ⟨hrepeating, hfifth⟩ := h.repeating_of_setRepeating hu hnext
  have hlimits : Text.isBlank e'.title = false ∧ e'.title.length ≤ policy.titleMaxLength := by
    rw [htitle]
    rcases getD_eq_or u.title e.title with hnew | hold
    · exact hu.title _ hnew
    · rw [hold]
      exact ⟨h.title_not_blank, h.title_length_le⟩
  constructor
  case title_not_blank => exact hlimits.1
  case title_length_le => exact hlimits.2
  case description_length_le =>
    intro s hs
    rw [hdescription] at hs
    rcases eq_some_or_of_getD hs with hnew | hold
    · exact hu.description s hnew
    · exact h.description_length_le s hold
  case location_length_le =>
    intro s hs
    rw [hlocation] at hs
    rcases eq_some_or_of_getD hs with hnew | hold
    · exact hu.location s hnew
    · exact h.location_length_le s hold
  case start_le_end => exact horder
  case repeating_eq =>
    rw [← hmoved]
    exact repeating_movedBy next u.reschedule hrepeating
  case regular =>
    intro r hr
    rw [← hmoved] at hr
    exact Recurrence.regular_of_avoidsFifth (avoidsFifth_movedBy next u.reschedule hfifth r hr)
  case offset_pos =>
    intro hpolicy n hn
    rw [hfirst, hsecond] at hn
    rcases hn with hn | hn
    · rcases eq_some_or_of_getD hn with hnew | hold
      · exact hu.offset hpolicy n (.inl hnew)
      · exact h.offset_pos hpolicy n (.inl hold)
    · rcases eq_some_or_of_getD hn with hnew | hold
      · exact hu.offset hpolicy n (.inr hnew)
      · exact h.offset_pos hpolicy n (.inr hold)

end Event

/-! ## Requests -/

namespace Request

variable {policy : RequestPolicy} {r : Request}

theorem avoidsFifth_of_recurrence {start : Date} {found : Recurrence}
    (h : r.recurrence start = .ok found) : found.pattern.AvoidsFifth := by
  obtain ⟨patch, hpatch, hmade⟩ := Except.bind_eq_ok_iff.mp h
  split at hmade
  · cases hmade
  · rw [(Recurrence.make_eq_ok_iff.mp hmade).2]
    exact RecurrencePatch.avoidsFifth_pattern (ne_fifth_of_recurrencePatch hpatch) nofun

/-- A valid request to create an event describes one within the limits. -/
theorem conforms_of_toEvent {e : Event} (h : r.Valid policy .create) (he : r.toEvent = .ok e) :
    e.Conforms policy := by
  obtain ⟨title, start, entityType, remindBy, recurrence, htitle, hstart, -, -, hrecurrence, rfl⟩ :=
    toEvent_eq_ok_iff.mp he
  obtain ⟨s, hs, hblank, hlength⟩ := h.title rfl
  obtain rfl : title = s := Option.some.inj (htitle.symm.trans hs)
  have hoffset : ∀ name ∈ [Parameter.firstReminderOffset, Parameter.secondReminderOffset],
      ∀ n, (r.integer name).value? = some n → 0 < n := fun name hname n hn ↦
    Reading.forall_of_isMissing_or (h.offset name hname) n hn (.inl rfl)
  constructor
  case title_not_blank => exact hblank
  case title_length_le => exact hlength
  case description_length_le => exact Reading.forall_of_isMissing_or h.description
  case location_length_le => exact Reading.forall_of_isMissing_or h.location
  case start_le_end =>
    intro stop hstop
    obtain ⟨stop', hstop', horder⟩ := h.endDate (has_of_value? (r.isAbsent_date _) hstop)
    obtain rfl : stop = stop' := Option.some.inj (hstop.symm.trans hstop')
    exact horder start hstart
  case repeating_eq => rfl
  case regular =>
    rintro found rfl
    rcases recurrence?_eq_ok_iff.mp hrecurrence with ⟨-, v, hv, heq⟩ | ⟨-, heq⟩
    · cases heq
      exact Recurrence.regular_of_avoidsFifth (avoidsFifth_of_recurrence hv)
    · cases heq
  case offset_pos =>
    intro _ n hn
    rcases hn with hn | hn
    · exact hoffset Parameter.firstReminderOffset (by decide) n hn
    · exact hoffset Parameter.secondReminderOffset (by decide) n hn

/-- A valid request to update an event describes an update within the limits. -/
theorem conforms_of_toUpdate {u : EventUpdate} (h : r.Valid policy .update)
    (hu : r.toUpdate = .ok u) : u.Conforms policy := by
  obtain ⟨entityType, remindBy, repeating, -, -, hrepeating, rfl⟩ := toUpdate_eq_ok_iff.mp hu
  have hoffset : policy.offsetsOnUpdate = .positive →
      ∀ name ∈ [Parameter.firstReminderOffset, Parameter.secondReminderOffset],
      ∀ n, (r.integer name).patch? = some (some n) → 0 < n := fun hpolicy name hname n hn ↦
    Reading.forall_of_isMissing_or (h.offset name hname) n (Reading.patch?_eq_some_some_iff.mp hn)
      (.inr hpolicy)
  constructor
  case title =>
    intro title htitle
    obtain ⟨s, hs, hlimits⟩ := h.title (isChecked_of_value? (r.isAbsent_text _) htitle)
    obtain rfl : title = s := Option.some.inj (htitle.symm.trans hs)
    exact hlimits
  case description =>
    intro s hs
    exact Reading.forall_of_isMissing_or h.description s (Reading.patch?_eq_some_some_iff.mp hs)
  case location =>
    intro s hs
    exact Reading.forall_of_isMissing_or h.location s (Reading.patch?_eq_some_some_iff.mp hs)
  case repeating =>
    rintro patch rfl
    exact ne_fifth_of_recurrencePatch (repeatUpdate?_eq_on hrepeating)
  case offset =>
    intro hpolicy n hn
    rcases hn with hn | hn
    · exact hoffset hpolicy Parameter.firstReminderOffset (by decide) n hn
    · exact hoffset hpolicy Parameter.secondReminderOffset (by decide) n hn

end Request

/-! ## Runs -/

namespace RequestPolicy

variable {policy : RequestPolicy} {e : Event}

/-- The event after a request to update it, which stays as it is when the request is refused. -/
def updateOrKeep (policy : RequestPolicy) (e : Event) (body : String) : Event :=
  match policy.updateEvent e body with
  | .ok (next, _) => next
  | .error _ => e

/-- The event after requests to update it, one after the other. -/
def updateAll (policy : RequestPolicy) (e : Event) (bodies : List String) : Event :=
  bodies.foldl policy.updateOrKeep e

theorem conforms_createEvent {body : String} (h : policy.createEvent body = .ok e) :
    e.Conforms policy := by
  obtain ⟨r, -, h⟩ := Except.bind_eq_ok_iff.mp h
  obtain ⟨_, hvalid, he⟩ := Except.bind_eq_ok_iff.mp h
  exact Request.conforms_of_toEvent (Request.validate_eq_ok_iff.mp hvalid) he

/-- One request keeps an event within the limits, whether it is accepted or refused. -/
theorem conforms_updateOrKeep (h : e.Conforms policy) (body : String) :
    (policy.updateOrKeep e body).Conforms policy := by
  unfold updateOrKeep
  split
  · next next changes hupdate =>
    obtain ⟨r, -, hupdate⟩ := Except.bind_eq_ok_iff.mp hupdate
    obtain ⟨_, hvalid, hupdate⟩ := Except.bind_eq_ok_iff.mp hupdate
    obtain ⟨u, hu, hupdate⟩ := Except.bind_eq_ok_iff.mp hupdate
    have hconforms := Request.conforms_of_toUpdate (Request.validate_eq_ok_iff.mp hvalid) hu
    exact h.updated hconforms (Event.update_eq_ok_iff.mp hupdate).1
  · exact h

theorem conforms_updateAll (h : e.Conforms policy) (bodies : List String) :
    (policy.updateAll e bodies).Conforms policy := by
  induction bodies generalizing e with
  | nil => exact h
  | cons body bodies ih => exact ih (conforms_updateOrKeep h body)

/-- An event that a request has created conforms to the policy after any requests to update it. -/
theorem conforms_updateAll_of_createEvent {body : String} (h : policy.createEvent body = .ok e)
    (bodies : List String) : (policy.updateAll e bodies).Conforms policy :=
  conforms_updateAll (conforms_createEvent h) bodies

/-- A monthly meeting on the fourth Friday is moved to a fifth Thursday; then a blank title is
refused. -/
theorem conforms_updateAll_of_createEvent_fourth_friday :
    let policy : RequestPolicy := { offsetsOnUpdate := .positive }
    let body := "\x7b\"title\": \"Center meeting\", \"startDate\": \"2024-01-26\", " ++
      "\"typeId\": 4, \"repeating\": true, \"frequency\": 3, " ++
      "\"repeatsOnNthDayOfMonth\": 4, \"repeatsOnDay\": 5, \"firstReminderOffset\": 3\x7d"
    let move := "\x7b\"rescheduleBasedOnMeetingDates\": true, " ++
      "\"presentMeetingDate\": \"2024-02-23\", \"newMeetingDate\": \"2024-02-29\"\x7d"
    let blank := "\x7b\"title\": \" \"\x7d"
    ∃ e, policy.createEvent body = .ok e ∧ (policy.updateAll e [move, blank]).Conforms policy := by
  intro policy body move blank
  have hcreated : (policy.createEvent body).isOk = true := by decide +kernel
  obtain ⟨e, he⟩ := Except.exists_eq_ok_of_isOk hcreated
  exact ⟨e, he, conforms_updateAll_of_createEvent he [move, blank]⟩

end RequestPolicy

end MeetingCalendar
