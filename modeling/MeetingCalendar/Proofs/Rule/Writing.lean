import MeetingCalendar.Proofs.Rule.Wording

/-!
# Rules written and read back

The text of a rule reads as the same rule, `Rule.parse_toText`, if the text can say all of it: no
other parts restrict the rule, its interval has 16 bits, and places of weekdays have 16 bits and are
not zero.  The text is one wording of the rule, without an interval of one and without a start of
the week.
-/

namespace MeetingCalendar.Rule

/-- A rule of which the text says everything. -/
structure Writable (rule : Rule) : Prop where
  interval_le : rule.interval ≤ Text.maxNat16
  place : ∀ day ∈ rule.days, ∀ place, day.place = some place →
    place ≠ 0 ∧ Text.minInt16 ≤ place ∧ place ≤ Text.maxInt16
  others : rule.others = []

def writtenParts (rule : Rule) : List (Part × List Char) :=
  (.frequency, rule.unit.keyword.toList) ::
    ((if rule.interval = 1 then [] else [(.interval, Nat.toDigits 10 rule.interval)]) ++
    (if rule.days.isEmpty then []
      else [(.days, [','].intercalate (rule.days.map Day.toChars))]))

theorem partsToChars_eq (rule : Rule) :
    rule.partsToChars = rule.writtenParts.map fun p ↦ p.1.toChars p.2 := by
  unfold partsToChars writtenParts
  split <;> split <;> rfl

theorem toList_toText (rule : Rule) : rule.toText.toList = partsToText rule.writtenParts := by
  rw [toText, String.toList_ofList, partsToChars_eq, partsToText]

namespace Writable

variable {rule : Rule} (h : rule.Writable)

def wording : Wording where
  unit := rule.unit
  interval := if rule.interval = 1 then none else some rule.interval
  days := rule.days
  weekStart := none
  interval_le n hn := by
    split at hn
    · cases hn
    · cases hn
      exact h.interval_le
  writable := h.place

theorem rule_wording : h.wording.rule = rule := by
  obtain ⟨unit, interval, days, others⟩ := rule
  obtain rfl : others = [] := h.others
  by_cases hone : interval = 1 <;> simp [Wording.rule, wording, hone]

theorem parts_wording : h.wording.parts = rule.writtenParts := by
  unfold Wording.parts wording writtenParts
  dsimp only
  split <;> simp [daysToText]

theorem toList_toText_eq : rule.toText.toList = partsToText h.wording.parts := by
  rw [toList_toText, parts_wording]

end Writable

/-- The text of a rule reads as the rule. -/
theorem parse_toText {rule : Rule} (h : rule.Writable) :
    parse rule.toText.toList = .ok rule := by
  rw [h.toList_toText_eq, parse_partsToText (List.Perm.refl _), h.rule_wording]

end MeetingCalendar.Rule
