import Mathlib.Data.List.Basic
import MeetingCalendar.Proofs.Event.Agreement
import MeetingCalendar.Proofs.Json.Nulls

/-!
# Emptying optional fields

A request that gives some optional fields as null empties them and does nothing else.  The end date
is the exception: creation and update alike refuse it as null, so an event keeps the end date that
it has until it gets another one.
-/

namespace MeetingCalendar

/-- The fields that an event may leave empty. -/
def Parameter.optional : List String :=
  [description, location, endDate, duration, remindById, firstReminderOffset,
    secondReminderOffset, meetingTime]

/-- The event without a value in the named optional fields. -/
def Event.emptied (e : Event) (names : List String) : Event where
  title := e.title
  description := if Parameter.description ∈ names then none else e.description
  location := if Parameter.location ∈ names then none else e.location
  startDate := e.startDate
  endDate := if Parameter.endDate ∈ names then none else e.endDate
  duration := if Parameter.duration ∈ names then none else e.duration
  entityType := e.entityType
  repeating := e.repeating
  recurrence := e.recurrence
  remindBy := if Parameter.remindById ∈ names then none else e.remindBy
  firstReminderOffset := if Parameter.firstReminderOffset ∈ names then none
    else e.firstReminderOffset
  secondReminderOffset := if Parameter.secondReminderOffset ∈ names then none
    else e.secondReminderOffset
  meetingTime := if Parameter.meetingTime ∈ names then none else e.meetingTime

/-- The optional fields, each with whether it has a value. -/
def Event.optionalFields (e : Event) : List (String × Bool) :=
  [(Parameter.description, e.description.isSome), (Parameter.location, e.location.isSome),
    (Parameter.endDate, e.endDate.isSome), (Parameter.duration, e.duration.isSome),
    (Parameter.remindById, e.remindBy.isSome),
    (Parameter.firstReminderOffset, e.firstReminderOffset.isSome),
    (Parameter.secondReminderOffset, e.secondReminderOffset.isSome),
    (Parameter.meetingTime, e.meetingTime.isSome)]

/-- The changes to null of the named optional fields, where these have a value. -/
def Event.emptiedChanges (e : Event) (names : List String) : Changes :=
  e.optionalFields.filterMap fun (name, filled) ↦
    if filled ∧ name ∈ names then some (name, .null) else none

namespace Event

theorem change_self {α : Type} [DecidableEq α] [Encode α] (name : String) (value : α) :
    change name value value = [] :=
  if_pos rfl

/-- Emptying a field is a change if the field has a value. -/
theorem change_ite_none {α : Type} [DecidableEq α] [Encode α] (name : String) (old : Option α)
    (names : List String) :
    change name old (if name ∈ names then none else old) =
      (if old.isSome ∧ name ∈ names then some (name, .null) else none : Option _).toList := by
  by_cases hname : name ∈ names
  · rw [if_pos hname]
    cases old with
    | none => rw [change_self, if_neg (by simp)]; rfl
    | some value => rw [if_pos ⟨rfl, hname⟩]; rfl
  · rw [if_neg hname, change_self, if_neg fun h ↦ hname h.2]
    rfl

theorem changesTo_emptied (e : Event) (names : List String) :
    e.changesTo (e.emptied names) = e.emptiedChanges names := by
  rw [emptiedChanges, List.filterMap_eq_flatMap_toList]
  simp only [changesTo, emptied, change_self, change_ite_none, optionalFields, List.flatMap_cons,
    List.flatMap_nil, List.append_nil, List.nil_append, List.append_assoc]

end Event

namespace Request

variable {policy : RequestPolicy} {r : Request} {names : List String}

/-- The request gives the named fields as null, and no others. -/
def OnlyNulls (r : Request) (names : List String) : Prop :=
  ∀ name, r.get? name = if name ∈ names then some .null else none

namespace OnlyNulls

theorem has_iff (h : r.OnlyNulls names) {name : String} : r.has name = true ↔ name ∈ names := by
  rw [has, h name]
  split <;> simp [*]

theorem isMissing_of (h : r.OnlyNulls names) {α : Type} (expected : Expected)
    (parse : Json → Parsed α) (name : String) :
    (Reading.of expected parse (r.get? name)).isMissing = true := by
  rw [h name]
  split <;> rfl

theorem value?_of (h : r.OnlyNulls names) {α : Type} (expected : Expected)
    (parse : Json → Parsed α) (name : String) :
    (Reading.of expected parse (r.get? name)).value? = none :=
  Reading.value?_of_isMissing (h.isMissing_of expected parse name)

theorem getD_patch?_of (h : r.OnlyNulls names) {α : Type} (expected : Expected)
    (parse : Json → Parsed α) (name : String) (old : Option α) :
    (Reading.of expected parse (r.get? name)).patch?.getD old =
      if name ∈ names then none else old := by
  rw [h name]
  split <;> rfl

theorem getD_map_patch?_of (h : r.OnlyNulls names) {α β : Type} (expected : Expected)
    (parse : Json → Parsed α) (name : String) (old : Option β) :
    ((Reading.of expected parse (r.get? name)).patch?.map fun _ ↦ none).getD old =
      if name ∈ names then none else old := by
  rw [h name]
  split <;> rfl

theorem isSet_eq_false (h : r.OnlyNulls names) (name : String) : r.isSet name = false := by
  have hvalue : (r.boolean name).value? = none := h.value?_of _ _ name
  rw [isSet, hvalue]
  rfl

section Optional

variable (h : r.OnlyNulls names) (hnames : ∀ name ∈ names, name ∈ Parameter.optional)

include h hnames

theorem has_eq_false {name : String} (hname : name ∉ Parameter.optional) :
    r.has name = false := by
  rw [← Bool.not_eq_true, h.has_iff]
  exact fun hmem ↦ hname (hnames name hmem)

theorem isChecked_update_eq_false {name : String} (hname : name ∉ Parameter.optional) :
    r.isChecked .update name = false :=
  h.has_eq_false hnames hname

theorem rescheduleViolations_eq_nil : r.rescheduleViolations = [] := by
  have hgroup : ∀ name ∈ Parameter.rescheduleGroup, name ∉ Parameter.optional := by decide
  apply rescheduleViolations_of_has_eq_false
  exact fun name hname ↦ h.has_eq_false hnames (hgroup name hname)

theorem repeatViolations_eq_nil : r.repeatViolations .update = [] := by
  rw [repeatViolations_eq_nil_iff, h.has_eq_false hnames (by decide), h.isSet_eq_false]
  exact ⟨nofun, nofun⟩

/-- The end date is refused as null. -/
theorem dateRangeViolations_eq :
    r.dateRangeViolations .update =
      if Parameter.endDate ∈ names then [⟨Parameter.endDate, .null, .cannotBeBlank⟩] else [] := by
  have hstart : r.isChecked .update Parameter.startDate = false :=
    h.isChecked_update_eq_false hnames (by decide)
  by_cases hend : Parameter.endDate ∈ names
  · have hnull : r.date Parameter.endDate = .null := by
      rw [date, h Parameter.endDate, if_pos hend]
      rfl
    have horder : r.orderViolations = [] := by
      unfold orderViolations
      rw [hnull]
      cases r.date Parameter.startDate <;> rfl
    have hrefused : r.dateViolations Parameter.endDate =
        [⟨Parameter.endDate, .null, .cannotBeBlank⟩] := by
      rw [dateViolations, hnull]
      rfl
    rw [dateRangeViolations, hstart, h.has_iff.mpr hend, hrefused, horder, if_pos hend]
    rfl
  · have hhas : r.has Parameter.endDate = false := by
      rwa [← Bool.not_eq_true, h.has_iff]
    rw [dateRangeViolations, hstart, hhas, if_neg hend]
    rfl

/-- The end date is the only field that is refused as null. -/
theorem violations_eq (policy : RequestPolicy) :
    r.violations policy .update =
      if Parameter.endDate ∈ names then [⟨Parameter.endDate, .null, .cannotBeBlank⟩] else [] := by
  have htitle : r.titleViolations policy .update = [] := by
    rw [titleViolations, h.isChecked_update_eq_false hnames (by decide)]
    rfl
  have htype : r.typeViolations .update = [] := by
    rw [typeViolations, h.isChecked_update_eq_false hnames (by decide)]
    rfl
  have htext (name : String) (max : Nat) : r.optionalTextViolations name max = [] :=
    optionalTextViolations_eq_nil_iff.mpr (.inl (h.isMissing_of _ _ name))
  have hduration : r.durationViolations = [] :=
    durationViolations_eq_nil_iff.mpr (.inl (h.isMissing_of _ _ _))
  have hremind : r.remindByViolations = [] :=
    remindByViolations_eq_nil_iff.mpr (.inl (h.isMissing_of _ _ _))
  have hoffset (name : String) : r.offsetViolations policy .update name = [] :=
    offsetViolations_eq_nil_iff.mpr (.inl (h.isMissing_of _ _ name))
  have htime : r.meetingTimeViolations = [] :=
    meetingTimeViolations_eq_nil_iff.mpr (.inl (h.isMissing_of _ _ _))
  rw [violations, h.rescheduleViolations_eq_nil hnames, htitle, htext, htext,
    h.dateRangeViolations_eq hnames, hduration, htype, h.repeatViolations_eq_nil hnames, hremind,
    hoffset, hoffset, htime]
  simp only [checkIf, ite_self, List.nil_append, List.append_nil]

end Optional

/-- The request empties the fields that it names. -/
theorem exists_toUpdate (h : r.OnlyNulls names) (hend : Parameter.endDate ∉ names) (e : Event) :
    ∃ u, r.toUpdate = .ok u ∧ e.setFields u = e.emptied names ∧ u.repeating = none ∧
      u.reschedule = none := by
  have htype : r.choice? EntityType Parameter.typeId = .ok none := by
    rw [choice?, integer, h.value?_of]
  have hremind : r.choice? RemindBy Parameter.remindById = .ok none := by
    rw [choice?, integer, h.value?_of]
  have hrepeat : r.repeatUpdate? = .ok none := by
    rw [repeatUpdate?, boolean, h.value?_of]
  have hreschedule : r.reschedule? = none := by
    rw [reschedule?, h.isSet_eq_false]
    rfl
  refine ⟨_, toUpdate_eq_ok_iff.mpr ⟨none, none, none, htype, hremind, hrepeat, rfl⟩, ?_, rfl,
    hreschedule⟩
  simp only [Event.setFields, Event.emptied, text, integer, date, time, h.value?_of,
    h.getD_patch?_of, h.getD_map_patch?_of, if_neg hend, Option.getD_none]

end OnlyNulls

/-- The object of nulls is a request that gives just these. -/
theorem exists_request_of_nulls {body : String}
    (hdate : ∃ pattern, Pattern.ofText policy.defaultDatePattern = .ok pattern)
    (htime : ∃ pattern, Pattern.ofText policy.defaultTimePattern = .ok pattern)
    (hnames : ∀ name ∈ names, name ∈ Parameter.optional)
    (hbody : Json.parse? body = some (Json.nulls names)) :
    ∃ r, policy.request body = .ok r ∧ r.OnlyNulls names := by
  obtain ⟨datePattern, hdate⟩ := hdate
  obtain ⟨timePattern, htime⟩ := htime
  have hdefault {key default : String} (hkey : key ∉ Parameter.optional) :
      patternText (Json.sortFields (names.map (·, .null))) key default = default := by
    rw [patternText, Json.lookup_sortFields_nulls, if_neg fun hmem ↦ hkey (hnames key hmem)]
  obtain ⟨r, hread, hfields⟩ : ∃ r, ofBody policy body = .ok r ∧
      r.fields = Json.sortFields (names.map (·, .null)) := by
    refine ⟨⟨_, datePattern, timePattern⟩, ?_, rfl⟩
    rw [ofBody, Json.isBlank_of_parse? hbody, hbody, Json.nulls, Json.ofFields]
    change ofFields policy _ = _
    simp only [ofFields, hdefault (show Parameter.dateFormat ∉ Parameter.optional by decide),
      hdefault (show Parameter.timeFormat ∉ Parameter.optional by decide), hdate, htime]
    rfl
  have hsupported : r.unsupported Parameter.all = [] := by
    have hall : ∀ name ∈ Parameter.optional, Parameter.all.contains name = true := by decide
    rw [unsupported, Request.names, hfields, List.filter_eq_nil_iff]
    intro name hname
    rw [hall name (hnames name (Json.mem_of_mem_sortFields_nulls hname))]
    exact Bool.false_ne_true
  refine ⟨r, ?_, fun name ↦ ?_⟩
  · unfold RequestPolicy.request ofSupportedBody
    rw [hread, Except.mapError_ok, Except.bind_of_eq_ok rfl, hsupported]
    rfl
  · rw [get?, hfields, Json.lookup_sortFields_nulls]

end Request

namespace RequestPolicy

variable {policy : RequestPolicy} {e : Event} {names : List String}

/-- The object of nulls empties the optional fields that it names and changes nothing else, as long
as the end date is not among them; then it is refused for the end date alone. -/
theorem updateEvent_nulls
    (hdate : ∃ pattern, Pattern.ofText policy.defaultDatePattern = .ok pattern)
    (htime : ∃ pattern, Pattern.ofText policy.defaultTimePattern = .ok pattern)
    (horder : ∀ stop, e.endDate = some stop → e.startDate ≤ stop)
    (hnames : ∀ name ∈ names, name ∈ Parameter.optional) :
    Json.parse? (Json.compact (.object (names.map (·, .null)))) = some (.nulls names) ∧
      ∀ body, Json.parse? body = some (.nulls names) →
        policy.updateEvent e body =
          if Parameter.endDate ∈ names then
            .error (.rejected (.calendar [⟨Parameter.endDate, .null, .cannotBeBlank⟩]))
          else .ok (e.emptied names, e.emptiedChanges names) := by
  have hplain : Parameter.optional.all (·.toList.all Json.isPlain) = true := by decide
  simp only [List.all_eq_true] at hplain
  refine ⟨Json.parse?_compact_nulls fun name hname ↦ hplain name (hnames name hname),
    fun body hbody ↦ ?_⟩
  obtain ⟨r, hrequest, hnulls⟩ := Request.exists_request_of_nulls hdate htime hnames hbody
  have hviolations := hnulls.violations_eq hnames policy
  split
  · next hend =>
    rw [if_pos hend] at hviolations
    unfold updateEvent
    rw [Except.bind_of_eq_ok hrequest]
    refine Except.bind_eq_error_iff.mpr (.inl ?_)
    rw [Request.validate, hviolations]
    rfl
  · next hend =>
    rw [if_neg hend] at hviolations
    obtain ⟨u, hu, hfields, hrepeating, hreschedule⟩ := hnulls.exists_toUpdate hend e
    have hupdated : e.updated u = .ok (e.emptied names) := by
      rw [Event.updated_eq_ok_iff, hreschedule, hrepeating, hfields]
      refine ⟨rfl, _, rfl, rfl, fun stop hstop ↦ horder stop ?_⟩
      rwa [Event.emptied, if_neg hend] at hstop
    rw [updateEvent_eq_ok hrequest (Request.violations_eq_nil_iff.mp hviolations) hu hupdated,
      Event.changesTo_emptied]

/-- Emptying the description, which is there, and the time, which is not. -/
theorem updateEvent_nulls_description :
    let policy : RequestPolicy := {}
    let start : Date := (Date.ofParts? 2024 1 26).get (by decide)
    let stop : Date := (Date.ofParts? 2024 12 31).get (by decide)
    let e : Event := { title := "Center meeting", description := some "Weekly", startDate := start,
                       endDate := some stop, entityType := .centers }
    let names := [Parameter.meetingTime, Parameter.description]
    ((∃ pattern, Pattern.ofText policy.defaultDatePattern = .ok pattern) ∧
      (∃ pattern, Pattern.ofText policy.defaultTimePattern = .ok pattern) ∧
      (∀ stop, e.endDate = some stop → e.startDate ≤ stop) ∧
      ∀ name ∈ names, name ∈ Parameter.optional) ∧
    Json.parse? (Json.compact (.object (names.map (·, .null)))) = some (.nulls names) ∧
      ∀ body, Json.parse? body = some (.nulls names) →
        policy.updateEvent e body =
          if Parameter.endDate ∈ names then
            .error (.rejected (.calendar [⟨Parameter.endDate, .null, .cannotBeBlank⟩]))
          else .ok (e.emptied names, e.emptiedChanges names) := by
  intro policy start stop e names
  have hdate : ∃ pattern, Pattern.ofText policy.defaultDatePattern = .ok pattern :=
    Except.exists_eq_ok_of_isOk (by decide +kernel)
  have htime : ∃ pattern, Pattern.ofText policy.defaultTimePattern = .ok pattern :=
    Except.exists_eq_ok_of_isOk (by decide +kernel)
  have horder : ∀ stop, e.endDate = some stop → e.startDate ≤ stop := by
    rintro _ ⟨⟩
    decide
  have hnames : ∀ name ∈ names, name ∈ Parameter.optional := by decide
  exact ⟨⟨hdate, htime, horder, hnames⟩, updateEvent_nulls hdate htime horder hnames⟩

/-- An end date is not emptied, and with a default pattern that is none nothing is. -/
theorem updateEvent_nulls_isOk_eq_false :
    let start : Date := (Date.ofParts? 2024 1 26).get (by decide)
    let stop : Date := (Date.ofParts? 2024 12 31).get (by decide)
    let e : Event := { title := "Center meeting", description := some "Weekly", startDate := start,
                       endDate := some stop, entityType := .centers }
    start ≤ stop ∧
      (({} : RequestPolicy).updateEvent e "\x7b\"endDate\":null\x7d").isOk = false ∧
      (({ defaultDatePattern := "ww" } : RequestPolicy).updateEvent e
        "\x7b\"description\":null\x7d").isOk = false := by
  decide +kernel

end RequestPolicy

end MeetingCalendar
