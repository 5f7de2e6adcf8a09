import MeetingCalendar.Proofs.Date.DayNumber

/-!
# The first dates with a property

`FirstDates n P dates` says that a list consists of the first `n` dates with the property `P`, or of
all of them if there are fewer, in ascending order.  The property and the number determine the list.
Lists for two properties join to one for both when every date of the first kind is earlier than
every date of the second; a search that goes through time in steps is assembled in this way.
-/

namespace MeetingCalendar

/-- The list of the first `n` dates with a property, or of all such dates if there are fewer. -/
structure FirstDates (n : Nat) (P : Date → Prop) (dates : List Date) : Prop where
  ascending : dates.Pairwise (· < ·)
  length_le : dates.length ≤ n
  holds : ∀ d ∈ dates, P d
  /-- A date with the property is left out only if the list is full of earlier ones. -/
  complete : ∀ d, P d → d ∈ dates ∨ dates.length = n ∧ ∀ e ∈ dates, e < d

namespace FirstDates

variable {n : Nat} {P Q : Date → Prop} {dates more : List Date}

theorem zero : FirstDates 0 P [] :=
  ⟨.nil, Nat.le_refl _, by simp, fun _ _ ↦ .inr ⟨rfl, by simp⟩⟩

theorem nil (h : ∀ d, ¬P d) : FirstDates n P [] :=
  ⟨.nil, Nat.zero_le _, by simp, fun d hd ↦ absurd hd (h d)⟩

theorem congr (h : FirstDates n P dates) (hPQ : ∀ d, P d ↔ Q d) : FirstDates n Q dates where
  ascending := h.ascending
  length_le := h.length_le
  holds d hd := (hPQ d).mp (h.holds d hd)
  complete d hd := h.complete d ((hPQ d).mpr hd)

/-- The front of an ascending list. -/
theorem take (h : dates.Pairwise (· < ·)) (n : Nat) :
    FirstDates n (· ∈ dates) (dates.take n) where
  ascending := h.sublist (List.take_sublist n dates)
  length_le := List.length_take_le n dates
  holds _ hd := List.mem_of_mem_take hd
  complete d hd := by
    rw [← List.take_append_drop n dates, List.mem_append] at hd
    rcases hd with hd | hd
    · exact .inl hd
    · right
      have hlength : n < dates.length := by
        have hpos := List.length_pos_of_mem hd
        rw [List.length_drop] at hpos
        omega
      refine ⟨List.length_take_of_le (Nat.le_of_lt hlength), fun e he ↦ ?_⟩
      rw [← List.take_append_drop n dates, List.pairwise_append] at h
      exact h.2.2 e he d hd

/-- First the dates with an earlier property, then those with a later one. -/
theorem append (h : FirstDates n P dates) (hmore : FirstDates (n - dates.length) Q more)
    (hlt : ∀ d, P d → ∀ e, Q e → d < e) :
    FirstDates n (fun d ↦ P d ∨ Q d) (dates ++ more) where
  ascending := by
    rw [List.pairwise_append]
    exact ⟨h.ascending, hmore.ascending,
      fun d hd e he ↦ hlt d (h.holds d hd) e (hmore.holds e he)⟩
  length_le := by
    have hn := h.length_le
    have hmoren := hmore.length_le
    rw [List.length_append]
    omega
  holds d hd := by
    rcases List.mem_append.mp hd with hd | hd
    · exact .inl (h.holds d hd)
    · exact .inr (hmore.holds d hd)
  complete d hd := by
    have hn := h.length_le
    have hmoren := hmore.length_le
    rw [List.mem_append, List.length_append]
    rcases hd with hd | hd
    · rcases h.complete d hd with hmem | ⟨hfull, hearlier⟩
      · exact .inl (.inl hmem)
      · have hempty : more = [] := List.eq_nil_of_length_eq_zero (by omega)
        subst hempty
        refine .inr ⟨by simpa using hfull, fun e he ↦ ?_⟩
        exact hearlier e (by simpa using he)
    · rcases hmore.complete d hd with hmem | ⟨hfull, hearlier⟩
      · exact .inl (.inr hmem)
      · refine .inr ⟨by omega, fun e he ↦ ?_⟩
        rcases List.mem_append.mp he with he | he
        · exact hlt e (h.holds e he) d hd
        · exact hearlier e he

/-- One date in front of all others. -/
theorem cons {d : Date} (h : FirstDates n Q more) (hlt : ∀ e, Q e → d < e) :
    FirstDates (n + 1) (fun e ↦ e = d ∨ Q e) (d :: more) := by
  have hone : FirstDates (n + 1) (· = d) [d] :=
    ⟨List.pairwise_singleton _ _, Nat.le_add_left _ _, fun e he ↦ by simpa using he,
      fun e he ↦ .inl (by simpa using he)⟩
  exact hone.append (by simpa using h) fun e he ↦ he ▸ hlt

/-- A list of first dates has a head unless no date has the property. -/
theorem head?_eq_none_iff (h : FirstDates n P dates) (hn : 0 < n) :
    dates.head? = none ↔ ∀ d, ¬P d := by
  rw [List.head?_eq_none_iff]
  constructor
  · rintro rfl d hd
    rcases h.complete d hd with hmem | ⟨hfull, -⟩
    · exact absurd hmem List.not_mem_nil
    · exact absurd hfull (Nat.ne_of_lt hn)
  · exact fun hnone ↦ List.eq_nil_iff_forall_not_mem.mpr fun d hd ↦ hnone d (h.holds d hd)

/-- The head of a list of first dates is the earliest date with the property. -/
theorem head?_eq_some_iff (h : FirstDates n P dates) (hn : 0 < n) {d : Date} :
    dates.head? = some d ↔ P d ∧ ∀ e, P e → d ≤ e := by
  cases dates with
  | nil =>
    have hnone : ∀ e, ¬P e := (h.head?_eq_none_iff hn).mp rfl
    exact ⟨nofun, fun hd ↦ absurd hd.1 (hnone d)⟩
  | cons first rest =>
    have hfirst : P first := h.holds first (List.mem_cons_self ..)
    have hearliest : ∀ e, P e → first ≤ e := by
      intro e he
      rcases h.complete e he with hmem | ⟨-, hearlier⟩
      · rcases List.mem_cons.mp hmem with rfl | hmem
        · exact Date.le_refl _
        · exact Date.le_of_lt (List.rel_of_pairwise_cons h.ascending hmem)
      · exact Date.le_of_lt (hearlier first (List.mem_cons_self ..))
    rw [List.head?_cons, Option.some.injEq]
    constructor
    · rintro rfl
      exact ⟨hfirst, hearliest⟩
    · rintro ⟨hd, hle⟩
      exact Date.le_antisymm (hearliest d hd) (hle first hfirst)

/-- A date that is not among the first ones is later than the last of them. -/
theorem mem_or_getLast?_lt (h : FirstDates n P dates) (hn : 0 < n) {d : Date} (hd : P d) :
    d ∈ dates ∨ dates.length = n ∧ ∃ last, dates.getLast? = some last ∧ last < d := by
  rcases h.complete d hd with hmem | ⟨hfull, hearlier⟩
  · exact .inl hmem
  · have hne : dates ≠ [] := List.ne_nil_of_length_pos (hfull ▸ hn)
    exact .inr ⟨hfull, dates.getLast hne, List.getLast?_eq_some_getLast hne,
      hearlier _ (List.getLast_mem hne)⟩

/-- The last of the first dates is not earlier than any of them. -/
theorem le_of_getLast? (h : FirstDates n P dates) {last d : Date}
    (hlast : dates.getLast? = some last) (hd : d ∈ dates) : d ≤ last := by
  obtain ⟨front, rfl⟩ := List.getLast?_eq_some_iff.mp hlast
  have hsorted := h.ascending
  rw [List.pairwise_append] at hsorted
  rcases List.mem_append.mp hd with hmem | hmem
  · exact Date.le_of_lt (hsorted.2.2 d hmem last (List.mem_singleton_self _))
  · rw [List.mem_singleton.mp hmem]
    exact Date.le_refl _

theorem nodup (h : FirstDates n P dates) : dates.Nodup := by
  apply h.ascending.imp
  rintro a b hlt rfl
  exact absurd hlt (Date.not_lt.mpr (Date.le_refl a))

/-- A date in one list is in the other: otherwise that one is full of earlier dates, and there would
be no room for all of them in the first list. -/
theorem mem_of_mem (h : FirstDates n P dates) (h' : FirstDates n P more) {d : Date}
    (hd : d ∈ dates) : d ∈ more := by
  rcases h'.complete d (h.holds d hd) with hmem | ⟨hfull, hearlier⟩
  · exact hmem
  · have hnodup : (d :: more).Nodup := by
      refine List.nodup_cons.mpr ⟨fun hmem ↦ ?_, h'.nodup⟩
      exact absurd (hearlier d hmem) (Date.not_lt.mpr (Date.le_refl d))
    have hsubset : d :: more ⊆ dates := by
      intro e he
      rcases List.mem_cons.mp he with rfl | he
      · exact hd
      · rcases h.complete e (h'.holds e he) with hmem | ⟨-, hlater⟩
        · exact hmem
        · exact absurd (hlater d hd) (Date.not_lt.mpr (Date.le_of_lt (hearlier e he)))
    have hlength := hnodup.length_le_of_subset hsubset
    rw [List.length_cons, hfull] at hlength
    exact absurd h.length_le (Nat.not_le.mpr hlength)

theorem unique (h : FirstDates n P dates) (h' : FirstDates n P more) : dates = more := by
  have hperm : dates.Perm more :=
    (List.perm_ext_iff_of_nodup h.nodup h'.nodup).mpr
      fun d ↦ ⟨fun hd ↦ mem_of_mem h h' hd, fun hd ↦ mem_of_mem h' h hd⟩
  refine hperm.eq_of_pairwise (fun a b _ _ hab hba ↦ ?_) h.ascending h'.ascending
  exact absurd hab (Date.not_lt.mpr (Date.le_of_lt hba))

/-- Without the earliest date the others follow. -/
theorem tail {d : Date} (h : FirstDates (n + 1) (fun e ↦ e = d ∨ Q e) dates)
    (hlt : ∀ e, Q e → d < e) : dates.head? = some d ∧ FirstDates n Q dates.tail := by
  have hhead : dates.head? = some d := by
    refine (h.head?_eq_some_iff (Nat.succ_pos n)).mpr ⟨.inl rfl, ?_⟩
    rintro e (rfl | he)
    · exact Date.le_refl _
    · exact Date.le_of_lt (hlt e he)
  refine ⟨hhead, ?_⟩
  obtain ⟨rest, rfl⟩ := List.head?_eq_some_iff.mp hhead
  have hbehind : ∀ e ∈ rest, d < e := fun e he ↦ List.rel_of_pairwise_cons h.ascending he
  refine ⟨h.ascending.tail, Nat.le_of_succ_le_succ h.length_le, fun e he ↦ ?_, fun e he ↦ ?_⟩
  · rcases h.holds e (List.mem_cons_of_mem d he) with rfl | hQ
    · exact absurd (hbehind e he) (Date.not_lt.mpr (Date.le_refl e))
    · exact hQ
  · rcases h.complete e (.inr he) with hmem | ⟨hfull, hearlier⟩
    · rcases List.mem_cons.mp hmem with rfl | hmem
      · exact absurd (hlt e he) (Date.not_lt.mpr (Date.le_refl e))
      · exact .inl hmem
    · exact .inr ⟨Nat.succ.inj hfull, fun e' he' ↦ hearlier e' (List.mem_cons_of_mem d he')⟩

end FirstDates

end MeetingCalendar
