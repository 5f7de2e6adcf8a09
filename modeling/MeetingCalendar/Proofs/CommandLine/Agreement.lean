import MeetingCalendar.CommandLine.Command
import MeetingCalendar.Proofs.Request.Strictness

/-!
# The commands accept the same requests

Validating a request, showing the event that it describes and listing the meeting dates of that
event begin with the same checks.  What comes behind them cannot fail, so the three commands accept
the same texts and answer a text that they do not accept in the same way.
-/

namespace MeetingCalendar

namespace RequestPolicy

variable {policy : RequestPolicy} {body : String}

/-- Making the event of a request fails as the validation of the request does. -/
theorem createEvent_of_validateBody_error {error : CalendarError}
    (h : policy.validateBody .create body = .error error) :
    policy.createEvent body = .error error := by
  rcases Except.bind_eq_error_iff.mp h with hrequest | ⟨r, hrequest, hvalidate⟩
  · exact Except.bind_eq_error_iff.mpr (.inl hrequest)
  · refine Except.bind_eq_error_iff.mpr (.inr ⟨r, hrequest, ?_⟩)
    exact Except.bind_eq_error_iff.mpr (.inl hvalidate)

/-- A request that passes validation describes an event. -/
theorem exists_createEvent_of_validateBody (h : policy.validateBody .create body = .ok ()) :
    ∃ e, policy.createEvent body = .ok e := by
  obtain ⟨r, hrequest, hvalidate⟩ := Except.bind_eq_ok_iff.mp h
  obtain ⟨e, he⟩ := Request.toEvent_of_valid (Request.validate_eq_ok_iff.mp hvalidate)
  refine ⟨e, Except.bind_eq_ok_iff.mpr ⟨r, hrequest, ?_⟩⟩
  exact Except.bind_eq_ok_iff.mpr ⟨(), hvalidate, he⟩

end RequestPolicy

namespace Command

variable {command : Command} {settings : Settings} {body : String}

theorem run_of_answer {output : Json} (h : command.answer settings body = .ok output) :
    command.run settings body = .ok ⟨true, output⟩ := by
  rw [run, h]

theorem run_of_rejected {report : Report}
    (h : command.answer settings body = .error (.rejected report)) :
    command.run settings body = .ok ⟨false, report.toJson⟩ := by
  rw [run, h]

theorem run_of_error {error : CalendarError} (h : command.answer settings body = .error error)
    (hreport : error.report? = none) : command.run settings body = .error error := by
  rw [run, h]
  cases error with
  | rejected report => cases hreport
  | _ => rfl

/-- The three commands on requests to create an event, each with its input. -/
def onCreation (inputs : String × String × String) (window : Window) (limit : Option Nat) :
    List Command :=
  [validate .create inputs.1, parse inputs.2.1, expand inputs.2.2 window limit]

/-- The commands fail as the validation of the request does. -/
theorem answer_of_validateBody_error {inputs : String × String × String} {window : Window}
    {limit : Option Nat} {error : CalendarError}
    (h : settings.requests.validateBody .create body = .error error) :
    ∀ command ∈ onCreation inputs window limit, command.answer settings body = .error error := by
  have hcreate := RequestPolicy.createEvent_of_validateBody_error h
  simp only [onCreation, List.forall_mem_cons, List.not_mem_nil, false_implies, implies_true,
    and_true]
  refine ⟨?_, ?_, ?_⟩
  · exact Except.bind_eq_error_iff.mpr (.inl h)
  · exact Except.bind_eq_error_iff.mpr (.inl hcreate)
  · exact Except.bind_eq_error_iff.mpr (.inl hcreate)

/-- On every text the commands that validate a request to create an event, show the event and list
its dates in a window either fail with the same error, or reject the request with the same report,
or accept it.  If they accept it, there is an event that two of them print. -/
theorem run_onCreation (settings : Settings) (body : String) (window : Window)
    (limit : Option Nat) (inputs : String × String × String) :
    (∃ error : CalendarError, error.report? = none ∧
      ∀ command ∈ onCreation inputs window limit, command.run settings body = .error error) ∨
    (∃ report : Report, ∀ command ∈ onCreation inputs window limit,
      command.run settings body = .ok ⟨false, report.toJson⟩) ∨
    ∃ e, settings.requests.createEvent body = .ok e ∧
      (validate .create inputs.1).run settings body = .ok ⟨true, .object [("valid", .bool true)]⟩ ∧
      (parse inputs.2.1).run settings body = .ok ⟨true, e.toJson⟩ ∧
      (expand inputs.2.2 window limit).run settings body =
        .ok ⟨true, expanded e (e.meetingDates window (limit.getD settings.maxOccurrences))⟩ := by
  cases hvalidate : settings.requests.validateBody .create body with
  | error error =>
    have hanswer : ∀ command ∈ onCreation inputs window limit,
        command.answer settings body = .error error :=
      answer_of_validateBody_error hvalidate
    cases hreport : error.report? with
    | none => exact .inl ⟨error, hreport, fun command h ↦ run_of_error (hanswer command h) hreport⟩
    | some report =>
      obtain rfl : error = .rejected report := by
        cases error <;> cases hreport
        rfl
      exact .inr (.inl ⟨report, fun command h ↦ run_of_rejected (hanswer command h)⟩)
  | ok accepted =>
    obtain ⟨e, he⟩ := RequestPolicy.exists_createEvent_of_validateBody hvalidate
    refine .inr (.inr ⟨e, he, run_of_answer ?_, run_of_answer ?_, run_of_answer ?_⟩)
    · exact Except.bind_eq_ok_iff.mpr ⟨(), hvalidate, rfl⟩
    · exact Except.bind_eq_ok_iff.mpr ⟨e, he, rfl⟩
    · exact Except.bind_eq_ok_iff.mpr ⟨e, he, rfl⟩

end Command

end MeetingCalendar
