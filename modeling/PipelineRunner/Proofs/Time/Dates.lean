import PipelineRunner.Proofs.Time.Calendar

/-!
# Days and their dates

The date of a day is in the calendar, and the day can be got back from it.
-/

namespace PipelineRunner.Time

/-! ### Leap years -/

theorem lt_yearStart {d : Int} (h0 : 0 ≤ d) (h1 : d < 146096) :
    d < yearStart (yearOfEra d + 1) := by
  have hcentury := yearOfEra_century h0 h1
  have hleap := yearOfEra_leap h0 h1
  have hyear : yearOfEra d = (d - d / 1460 + d / 36524) / 365 := by
    have hlast : d / 146096 = 0 := by omega
    unfold yearOfEra
    rw [hlast, Int.sub_zero]
  have hbounds : 365 * yearOfEra d ≤ d - d / 1460 + d / 36524 ∧
      d - d / 1460 + d / 36524 ≤ 365 * yearOfEra d + 364 := by omega
  clear hyear
  unfold yearStart
  generalize yearOfEra d = y at *
  by_cases hlast : (y + 1) % 100 = 0
  · -- the next year starts with the next century
    have hnext : y + 1 = 100 * (d / 36524 + 1) := by omega
    omega
  · have hsame : (y + 1) / 100 = d / 36524 := by omega
    by_cases hfour : d / 1460 = y / 4 + 1
    · -- the last year of four
      have hthree : y % 4 = 3 := by omega
      omega
    · omega

theorem isLeapYear_add_era (y era : Int) : isLeapYear (y + era * 400) = isLeapYear y := by
  have h4 : (y + era * 400) % 4 = y % 4 := by omega
  have h100 : (y + era * 400) % 100 = y % 100 := by omega
  have h400 : (y + era * 400) % 400 = y % 400 := by omega
  rw [isLeapYear, h4, h100, h400, isLeapYear]

/-- Two years of an era start 366 days apart only if the second has a February of 29 days. -/
theorem yearStart_succ {y : Int} (h : isLeapYear (y + 1) = false) :
    yearStart (y + 1) = yearStart y + 365 := by
  unfold yearStart
  simp only [isLeapYear, Bool.and_eq_false_iff, Bool.or_eq_false_iff, beq_eq_false_iff_ne,
    bne_eq_false_iff_eq] at h
  rcases h with h4 | ⟨h100, -⟩
  · have hfour : (y + 1) / 4 = y / 4 := by omega
    have hcentury : (y + 1) / 100 = y / 100 := by omega
    omega
  · omega

/-- A year that starts in March has 366 days only if its February is that of a leap year. -/
theorem dayOfYear_le (n : Int) :
    dayOfYear n ≤ 364 + if isLeapYear (marchYear n + 1) then 1 else 0 := by
  obtain ⟨h0, h1⟩ := dayOfEra_bounds n
  obtain ⟨hy0, hy1⟩ := yearOfEra_bounds h0 h1
  have hera : marchYear n + 1 = yearOfEra (dayOfEra n) + 1 + (n + 719468) / 146097 * 400 := by
    unfold marchYear
    omega
  rw [hera, isLeapYear_add_era]
  cases hleap : isLeapYear (yearOfEra (dayOfEra n) + 1) with
  | true => exact (dayOfYear_bounds n).2
  | false =>
    have hne : yearOfEra (dayOfEra n) ≠ 399 := by
      intro h
      rw [h] at hleap
      exact absurd hleap (by decide)
    have hlast : dayOfEra n ≠ 146096 := by
      intro h
      rw [h] at hne
      exact hne (by decide)
    have hlt := lt_yearStart h0 (by omega)
    rw [yearStart_succ hleap] at hlt
    rw [if_neg (by decide)]
    unfold dayOfYear
    omega

/-! ### Months -/

theorem lt_monthStart (d : Int) : d < monthStart (marchMonth d + 1) := by
  unfold monthStart marchMonth
  omega

theorem monthStart_succ {m : Int} (h0 : 0 ≤ m) (h1 : m ≤ 10) (y : Int) :
    monthStart (m + 1) = monthStart m + daysInMonth y (calendarMonth m).toNat := by
  have hm : m = 0 ∨ m = 1 ∨ m = 2 ∨ m = 3 ∨ m = 4 ∨ m = 5 ∨ m = 6 ∨ m = 7 ∨ m = 8 ∨ m = 9 ∨
      m = 10 := by omega
  rcases hm with rfl | rfl | rfl | rfl | rfl | rfl | rfl | rfl | rfl | rfl | rfl <;> rfl

namespace Date

theorem isValid_ofDays (n : Int) : (ofDays n).isValid = true := by
  obtain ⟨h0, h1⟩ := dayOfYear_bounds n
  obtain ⟨hm0, hm1, hstart, hend⟩ := marchMonth_bounds h0 h1
  have hnext := lt_monthStart (dayOfYear n)
  have hleap := dayOfYear_le n
  rw [ofDays_eq]
  simp only [isValid, Bool.and_eq_true, decide_eq_true_eq]
  generalize marchMonth (dayOfYear n) = m at *
  refine ⟨⟨⟨?_, ?_⟩, ?_⟩, ?_⟩
  · unfold calendarMonth
    split <;> omega
  · unfold calendarMonth
    split <;> omega
  · omega
  · by_cases hm : m = 11
    · subst hm
      show _ ≤ if isLeapYear (marchYear n + 1) then 29 else 28
      have hfeb : monthStart 11 = 337 := rfl
      split
      · omega
      · rename_i h
        rw [if_neg h] at hleap
        omega
    · rw [monthStart_succ hm0 (by omega) (calendarYear (marchYear n) m)] at hnext
      omega

theorem toDays_ofDays (n : Int) : (ofDays n).toDays = n := by
  obtain ⟨h0, h1⟩ := dayOfYear_bounds n
  obtain ⟨hm0, hm1, hstart, -⟩ := marchMonth_bounds h0 h1
  obtain ⟨hy0, hy1⟩ := yearOfEra_bounds (dayOfEra_bounds n).1 (dayOfEra_bounds n).2
  rw [ofDays_eq]
  unfold toDays
  simp only [Int.fdiv_eq_ediv_of_nonneg, Int.reduceLE]
  generalize marchMonth (dayOfYear n) = m at *
  have hyear : (if (calendarMonth m).toNat ≤ 2 then calendarYear (marchYear n) m - 1
      else calendarYear (marchYear n) m) = marchYear n := by
    unfold calendarYear calendarMonth
    split <;> split <;> omega
  have hmonth : (if (calendarMonth m).toNat ≤ 2 then ((calendarMonth m).toNat : Int) + 9
      else ((calendarMonth m).toNat : Int) - 3) = m := by
    unfold calendarMonth
    split <;> split <;> omega
  have hera : marchYear n / 400 = (n + 719468) / 146097 := by
    unfold marchYear
    omega
  have hyearOfEra : marchYear n - marchYear n / 400 * 400 = yearOfEra (dayOfEra n) := by
    rw [hera]
    unfold marchYear
    omega
  have hday : dayOfEra n = yearStart (yearOfEra (dayOfEra n)) + dayOfYear n := by
    unfold dayOfYear
    omega
  rw [hyear, hmonth, hyearOfEra, hera]
  unfold yearStart at hday
  unfold monthStart at *
  unfold dayOfEra at hday ⊢
  omega

end Date

end PipelineRunner.Time
