import PipelineRunner.Proofs.Time.Calendar
import PipelineRunner.Proofs.Time.Numerals

/-!
# Order of instants

Instants are ordered by their seconds and then by their nanoseconds. The text by which history
tables sort them has its fields at fixed places, the most significant first, and only the fraction
at its end varies in length; from the year 0 to the year 9999 it is ordered as the instants are.
-/

namespace PipelineRunner.Instant

/-! ### Earlier and later -/

theorem before_iff {a b : Instant} :
    a.before b = true ↔ a.seconds < b.seconds ∨ a.seconds = b.seconds ∧ a.nanos < b.nanos := by
  simp [before]

theorem before_eq_false_iff {a b : Instant} :
    a.before b = false ↔ b.seconds < a.seconds ∨ b.seconds = a.seconds ∧ b.nanos ≤ a.nanos := by
  rw [← Bool.not_eq_true, before_iff]
  omega

theorem not_before_trans {a b c : Instant} (hab : a.before b = false) (hbc : b.before c = false) :
    a.before c = false := by
  rw [before_eq_false_iff] at *
  omega

theorem not_before_total (a b : Instant) : a.before b = false ∨ b.before a = false := by
  rw [before_eq_false_iff, before_eq_false_iff]
  omega

theorem eq_of_not_before {a b : Instant} (hab : a.before b = false) (hba : b.before a = false) :
    a = b := by
  rw [before_eq_false_iff] at hab hba
  have hseconds : a.seconds = b.seconds := by omega
  have hnanos : a.nanos = b.nanos := by omega
  obtain ⟨s, n⟩ := a
  subst hseconds hnanos
  rfl

/-! ### Times of day -/

/-- The nanoseconds are within a second, or within the extra second that a minute may end with. -/
def InSecond (secondOfDay nanos : Nat) : Prop :=
  nanos < nanosPerSecond ∨ secondOfDay % 60 = 59 ∧ nanos < 2 * nanosPerSecond

instance (secondOfDay nanos : Nat) : Decidable (InSecond secondOfDay nanos) :=
  inferInstanceAs (Decidable (_ ∨ _))

theorem timeChars_lt {s s' n n' : Nat} (hs : s' < 86400) (hn : InSecond s n)
    (hn' : InSecond s' n') (h : s < s' ∨ s = s' ∧ n < n') : timeChars s n < timeChars s' n' := by
  unfold InSecond nanosPerSecond at hn hn'
  unfold timeChars nanosPerSecond
  simp only [List.append_assoc, List.cons_append]
  refine padded_append_lt (by decide) (show _ < 100 by omega) (show _ < 100 by omega) ?_
  by_cases hhour : s / 3600 < s' / 3600
  · exact Or.inl hhour
  refine Or.inr ⟨by omega, cons_lt_cons ':' ?_⟩
  refine padded_append_lt (by decide) (show _ < 100 by omega) (show _ < 100 by omega) ?_
  by_cases hminute : s / 60 % 60 < s' / 60 % 60
  · exact Or.inl hminute
  refine Or.inr ⟨by omega, cons_lt_cons ':' ?_⟩
  refine padded_append_lt (by decide) (show _ < 100 by omega) (show _ < 100 by omega) ?_
  -- an extra second comes after the second 59 and before the next minute
  by_cases hsecond : s % 60 + n / 1000000000 < s' % 60 + n' / 1000000000
  · exact Or.inl hsecond
  refine Or.inr ⟨by omega, fractionChars_lt ?_ (Nat.mod_lt _ (by decide))⟩
  omega

/-! ### Texts in tables -/

/-- The instants that a text in a table names: those from the year 0 to the year 9999, with
nanoseconds that are within their second. -/
structure Recordable (t : Instant) : Prop where
  year_nonneg : 0 ≤ (Time.Date.ofDays t.dayNumber).year
  year_le : (Time.Date.ofDays t.dayNumber).year ≤ 9999
  inSecond : InSecond t.secondOfDay.toNat t.nanos

instance (t : Instant) : Decidable t.Recordable :=
  decidable_of_iff
    (0 ≤ (Time.Date.ofDays t.dayNumber).year ∧ (Time.Date.ofDays t.dayNumber).year ≤ 9999 ∧
      InSecond t.secondOfDay.toNat t.nanos)
    ⟨fun ⟨h0, h1, h2⟩ => ⟨h0, h1, h2⟩, fun ⟨h0, h1, h2⟩ => ⟨h0, h1, h2⟩⟩

theorem dateChars_append_lt {d d' : Time.Date} {r r' : List Char}
    (hd : 0 ≤ d.year ∧ d.year ≤ 9999 ∧ d.month ≤ 12 ∧ d.day ≤ 31)
    (hd' : 0 ≤ d'.year ∧ d'.year ≤ 9999 ∧ d'.month ≤ 12 ∧ d'.day ≤ 31)
    (h : d.Before d' ∨ d = d' ∧ r < r') : dateChars d ++ r < dateChars d' ++ r' := by
  have hfields : d.year < d'.year ∨ d.year = d'.year ∧ (d.month < d'.month ∨
      d.month = d'.month ∧ (d.day < d'.day ∨ d.day = d'.day ∧ r < r')) := by
    rcases h with h | ⟨rfl, h⟩
    · unfold Time.Date.Before at h
      omega
    · exact Or.inr ⟨rfl, Or.inr ⟨rfl, Or.inr ⟨rfl, h⟩⟩⟩
  unfold dateChars yearChars
  rw [if_pos (by omega), if_pos (by omega)]
  simp only [List.append_assoc, List.cons_append]
  refine padded_append_lt (by decide) (show _ < 10000 by omega) (show _ < 10000 by omega) ?_
  rcases hfields with hyear | ⟨hyear, hfields⟩
  · exact Or.inl (by omega)
  refine Or.inr ⟨by rw [hyear], cons_lt_cons '-' ?_⟩
  refine padded_append_lt (by decide) (show _ < 100 by omega) (show _ < 100 by omega) ?_
  rcases hfields with hmonth | ⟨hmonth, hfields⟩
  · exact Or.inl hmonth
  refine Or.inr ⟨hmonth, cons_lt_cons '-' ?_⟩
  exact padded_append_lt (by decide) (show _ < 100 by omega) (show _ < 100 by omega) hfields

theorem dayNumber_eq (t : Instant) : t.dayNumber = t.seconds / 86400 :=
  Int.fdiv_eq_ediv_of_nonneg t.seconds (by decide)

theorem secondOfDay_eq (t : Instant) : t.secondOfDay = t.seconds % 86400 :=
  Int.fmod_eq_emod_of_nonneg t.seconds (by decide)

theorem toTableText_lt {a b : Instant} (ha : a.Recordable) (hb : b.Recordable)
    (h : a.before b = true) : a.toTableText < b.toTableText := by
  have hsplit : a.dayNumber < b.dayNumber ∨ a.dayNumber = b.dayNumber ∧
      (a.secondOfDay.toNat < b.secondOfDay.toNat ∨
        a.secondOfDay.toNat = b.secondOfDay.toNat ∧ a.nanos < b.nanos) := by
    rw [before_iff] at h
    rw [dayNumber_eq, dayNumber_eq, secondOfDay_eq, secondOfDay_eq]
    omega
  have hday : b.secondOfDay.toNat < 86400 := by
    rw [secondOfDay_eq]
    omega
  obtain ⟨hma, hda⟩ := Time.Date.ofDays_bounds a.dayNumber
  obtain ⟨hmb, hdb⟩ := Time.Date.ofDays_bounds b.dayNumber
  rw [String.lt_iff, toTableText, toTableText, String.toList_ofList, String.toList_ofList]
  refine dateChars_append_lt ⟨ha.year_nonneg, ha.year_le, hma, hda⟩
    ⟨hb.year_nonneg, hb.year_le, hmb, hdb⟩ ?_
  rcases hsplit with hlt | ⟨heq, htime⟩
  · exact Or.inl (Time.Date.ofDays_before hlt)
  · refine Or.inr ⟨by rw [heq], cons_lt_cons ' ' ?_⟩
    exact timeChars_lt hday ha.inSecond hb.inSecond htime

/-- Texts in tables are ordered as the instants they name. -/
theorem toTableText_lt_iff {a b : Instant} (ha : a.Recordable) (hb : b.Recordable) :
    a.toTableText < b.toTableText ↔ a.before b = true := by
  refine ⟨fun h => ?_, toTableText_lt ha hb⟩
  by_cases hba : b.before a = true
  · exact absurd (String.lt_trans h (toTableText_lt hb ha hba)) (String.lt_irrefl _)
  · refine Decidable.byContradiction fun hab => ?_
    rw [Bool.not_eq_true] at hab hba
    rw [eq_of_not_before hab hba] at h
    exact String.lt_irrefl _ h

end PipelineRunner.Instant
