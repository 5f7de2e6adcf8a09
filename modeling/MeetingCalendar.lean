import MeetingCalendar.Coded
import MeetingCalendar.CommandLine.Arguments
import MeetingCalendar.CommandLine.Command
import MeetingCalendar.Date.Basic
import MeetingCalendar.Date.Text
import MeetingCalendar.Decimal.Reading
import MeetingCalendar.Decimal.Shortest
import MeetingCalendar.Entity
import MeetingCalendar.Error
import MeetingCalendar.Event.Basic
import MeetingCalendar.Event.Encoding
import MeetingCalendar.Event.Request
import MeetingCalendar.Event.Update
import MeetingCalendar.Frequency
import MeetingCalendar.Handling
import MeetingCalendar.Json.Basic
import MeetingCalendar.Json.Number
import MeetingCalendar.Json.Parser
import MeetingCalendar.Json.Path
import MeetingCalendar.Json.Printer
import MeetingCalendar.Main
import MeetingCalendar.Occurrence.Expansion
import MeetingCalendar.Occurrence.Pager
import MeetingCalendar.Occurrence.Schedule
import MeetingCalendar.Ordinal
import MeetingCalendar.Pattern.Basic
import MeetingCalendar.Pattern.Reading
import MeetingCalendar.Proofs.Coded
import MeetingCalendar.Proofs.CommandLine.Agreement
import MeetingCalendar.Proofs.Date.DayNumber
import MeetingCalendar.Proofs.Date.FirstDates
import MeetingCalendar.Proofs.Event.Agreement
import MeetingCalendar.Proofs.Event.Clearing
import MeetingCalendar.Proofs.Event.Conformance
import MeetingCalendar.Proofs.Event.Listing
import MeetingCalendar.Proofs.Event.Refusal
import MeetingCalendar.Proofs.Event.Repeating
import MeetingCalendar.Proofs.Event.Reschedule
import MeetingCalendar.Proofs.Event.Update
import MeetingCalendar.Proofs.Except
import MeetingCalendar.Proofs.Json.Nulls
import MeetingCalendar.Proofs.Occurrence.Calls
import MeetingCalendar.Proofs.Occurrence.Expansion
import MeetingCalendar.Proofs.Occurrence.Matching
import MeetingCalendar.Proofs.Occurrence.Paging
import MeetingCalendar.Proofs.Occurrence.Source
import MeetingCalendar.Proofs.Occurrence.Unit
import MeetingCalendar.Proofs.Occurrence.Visit
import MeetingCalendar.Proofs.Pattern.Fields
import MeetingCalendar.Proofs.Pattern.Layout
import MeetingCalendar.Proofs.Pattern.RoundTrip
import MeetingCalendar.Proofs.Recurrence.Acceptance
import MeetingCalendar.Proofs.Recurrence.Patch
import MeetingCalendar.Proofs.Recurrence.RoundTrip
import MeetingCalendar.Proofs.Request.Alike
import MeetingCalendar.Proofs.Request.DefaultPatterns
import MeetingCalendar.Proofs.Request.Event
import MeetingCalendar.Proofs.Request.Formats
import MeetingCalendar.Proofs.Request.Independence
import MeetingCalendar.Proofs.Request.Recurrence
import MeetingCalendar.Proofs.Request.Relaxation
import MeetingCalendar.Proofs.Request.Rules
import MeetingCalendar.Proofs.Request.Spelling
import MeetingCalendar.Proofs.Request.Strictness
import MeetingCalendar.Proofs.Request.Validity
import MeetingCalendar.Proofs.Rule.Parts
import MeetingCalendar.Proofs.Rule.Writing
import MeetingCalendar.Proofs.Text
import MeetingCalendar.Proofs.Violation.Chain
import MeetingCalendar.Recurrence.Anchor
import MeetingCalendar.Recurrence.Basic
import MeetingCalendar.Recurrence.Error
import MeetingCalendar.Recurrence.Rule
import MeetingCalendar.Recurrence.Summary
import MeetingCalendar.Request.Basic
import MeetingCalendar.Request.Parameter
import MeetingCalendar.Request.Reading
import MeetingCalendar.Rule.Basic
import MeetingCalendar.Rule.Parser
import MeetingCalendar.Settings.Basic
import MeetingCalendar.Settings.Encoding
import MeetingCalendar.Settings.Sources
import MeetingCalendar.Text.Blank
import MeetingCalendar.Text.Integer
import MeetingCalendar.Text.UpperCase
import MeetingCalendar.TimeOfDay
import MeetingCalendar.Validation
import MeetingCalendar.Violation.Basic
import MeetingCalendar.Violation.Check
import MeetingCalendar.Weekday
import MeetingCalendar.Window
import MeetingCalendar.Proofs.Occurrence.Next
import MeetingCalendar.Proofs.Event.Changes
import MeetingCalendar.Proofs.Event.Retry
import MeetingCalendar.Proofs.Recurrence.Wording
import MeetingCalendar.Proofs.Recurrence.Anchoring
import MeetingCalendar.Proofs.Pattern.Quoting
import MeetingCalendar.Proofs.Occurrence.MonthCount
import MeetingCalendar.Proofs.Recurrence.Summary
import MeetingCalendar.Proofs.Request.Findings
import MeetingCalendar.Proofs.Pattern.FormatText
import MeetingCalendar.Proofs.Violation.Inspection
