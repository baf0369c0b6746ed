import PipelineRunner.Time.Calendar

/-!
# Days and dates in order

A day is placed by its era of 400 years, the year of the era, the day of that year and the month in
which it falls, with years that start in March. Each of these only grows with the day as long as
those before it stay the same, so that later days have later dates.
-/

namespace PipelineRunner.Time

/-! ### Parts of a day number -/

def dayOfEra (n : Int) : Int := n + 719468 - (n + 719468) / 146097 * 146097

def yearOfEra (d : Int) : Int := (d - d / 1460 + d / 36524 - d / 146096) / 365

def yearStart (y : Int) : Int := 365 * y + y / 4 - y / 100

/-- The year of a day, counted from March. -/
def marchYear (n : Int) : Int := yearOfEra (dayOfEra n) + (n + 719468) / 146097 * 400

def dayOfYear (n : Int) : Int := dayOfEra n - yearStart (yearOfEra (dayOfEra n))

/-- The month of a day of the year; March is the month 0. -/
def marchMonth (d : Int) : Int := (5 * d + 2) / 153

def monthStart (m : Int) : Int := (153 * m + 2) / 5

def calendarMonth (m : Int) : Int := if m < 10 then m + 3 else m - 9

def calendarYear (y m : Int) : Int := y + if calendarMonth m ≤ 2 then 1 else 0

theorem ofDays_eq (n : Int) :
    let m := marchMonth (dayOfYear n)
    Date.ofDays n =
      { year := calendarYear (marchYear n) m
        month := (calendarMonth m).toNat
        day := (dayOfYear n - monthStart m + 1).toNat } := by
  unfold Date.ofDays
  simp only [Int.fdiv_eq_ediv_of_nonneg, Int.reduceLE]
  rfl

/-! ### Years -/

theorem dayOfEra_bounds (n : Int) : 0 ≤ dayOfEra n ∧ dayOfEra n < 146097 := by
  unfold dayOfEra
  omega

theorem yearOfEra_bounds {d : Int} (h0 : 0 ≤ d) (h1 : d < 146097) :
    0 ≤ yearOfEra d ∧ yearOfEra d < 400 := by
  unfold yearOfEra
  omega

theorem yearOfEra_mono {a b : Int} (h : a ≤ b) : yearOfEra a ≤ yearOfEra b := by
  have h4 : a - a / 1460 ≤ b - b / 1460 := by omega
  have h100 : a / 36524 - a / 146096 ≤ b / 36524 - b / 146096 := by omega
  unfold yearOfEra
  omega

/-- Save for the last day of an era, its century can be told from the day alone. -/
theorem yearOfEra_century {d : Int} (h0 : 0 ≤ d) (h1 : d < 146096) :
    yearOfEra d / 100 = d / 36524 := by
  have hlast : d / 146096 = 0 := by omega
  unfold yearOfEra
  rw [hlast]
  omega

theorem yearOfEra_leap {d : Int} (h0 : 0 ≤ d) (h1 : d < 146096) :
    yearOfEra d / 4 ≤ d / 1460 ∧ d / 1460 ≤ yearOfEra d / 4 + 1 := by
  have hlast : d / 146096 = 0 := by omega
  unfold yearOfEra
  rw [hlast]
  omega

/-- A day of an era falls in the 366 days from the start of its year. -/
theorem yearStart_yearOfEra {d : Int} (h0 : 0 ≤ d) (h1 : d < 146097) :
    yearStart (yearOfEra d) ≤ d ∧ d ≤ yearStart (yearOfEra d) + 365 := by
  by_cases hd : d = 146096
  · subst hd
    decide
  · have hcentury := yearOfEra_century h0 (by omega)
    have hleap := yearOfEra_leap h0 (by omega)
    have hyear : yearOfEra d = (d - d / 1460 + d / 36524) / 365 := by
      have hlast : d / 146096 = 0 := by omega
      unfold yearOfEra
      rw [hlast, Int.sub_zero]
    unfold yearStart
    omega

theorem dayOfYear_bounds (n : Int) : 0 ≤ dayOfYear n ∧ dayOfYear n ≤ 365 := by
  obtain ⟨h0, h1⟩ := dayOfEra_bounds n
  obtain ⟨hstart, hend⟩ := yearStart_yearOfEra h0 h1
  unfold dayOfYear
  omega

/-- A later day is in a later year, or later in the same one. -/
theorem marchYear_lt_or {m n : Int} (h : m < n) :
    marchYear m < marchYear n ∨ marchYear m = marchYear n ∧ dayOfYear m < dayOfYear n := by
  have hm := yearOfEra_bounds (dayOfEra_bounds m).1 (dayOfEra_bounds m).2
  have hn := yearOfEra_bounds (dayOfEra_bounds n).1 (dayOfEra_bounds n).2
  unfold marchYear dayOfYear
  rcases Int.lt_or_le ((m + 719468) / 146097) ((n + 719468) / 146097) with hlt | hge
  · omega
  · -- in the same era the day of the era is later
    have hera : (m + 719468) / 146097 = (n + 719468) / 146097 := by omega
    have hday : dayOfEra m < dayOfEra n := by
      unfold dayOfEra
      omega
    have hyear := yearOfEra_mono (Int.le_of_lt hday)
    rcases Int.lt_or_le (yearOfEra (dayOfEra m)) (yearOfEra (dayOfEra n)) with hlt | hge
    · omega
    · have heq : yearOfEra (dayOfEra m) = yearOfEra (dayOfEra n) := by omega
      rw [heq, hera]
      omega

/-! ### Months and days -/

theorem marchMonth_bounds {d : Int} (h0 : 0 ≤ d) (h1 : d ≤ 365) :
    0 ≤ marchMonth d ∧ marchMonth d ≤ 11 ∧
      monthStart (marchMonth d) ≤ d ∧ d ≤ monthStart (marchMonth d) + 30 := by
  unfold marchMonth monthStart
  omega

theorem marchMonth_mono {a b : Int} (h : a ≤ b) : marchMonth a ≤ marchMonth b := by
  unfold marchMonth
  omega

theorem calendar_lt {y z m n : Int} (hm : 0 ≤ m ∧ m ≤ 11) (hn : 0 ≤ n ∧ n ≤ 11)
    (h : y < z ∨ y = z ∧ m < n) :
    calendarYear y m < calendarYear z n ∨
      calendarYear y m = calendarYear z n ∧ (calendarMonth m).toNat < (calendarMonth n).toNat := by
  unfold calendarYear calendarMonth
  -- January and February end a year that starts in March
  by_cases hm10 : m < 10 <;> by_cases hn10 : n < 10 <;> simp only [hm10, hn10, if_true, if_false] <;>
    split <;> split <;> omega

/-! ### Dates -/

namespace Date

def Before (a b : Date) : Prop :=
  a.year < b.year ∨ a.year = b.year ∧ (a.month < b.month ∨ a.month = b.month ∧ a.day < b.day)

theorem ofDays_bounds (n : Int) : (ofDays n).month ≤ 12 ∧ (ofDays n).day ≤ 31 := by
  obtain ⟨h0, h1⟩ := dayOfYear_bounds n
  obtain ⟨hm0, hm1, hstart, hend⟩ := marchMonth_bounds h0 h1
  rw [ofDays_eq]
  unfold calendarMonth
  constructor
  · dsimp only
    split <;> omega
  · dsimp only
    omega

theorem ofDays_before {m n : Int} (h : m < n) : (ofDays m).Before (ofDays n) := by
  obtain ⟨hm0, hm1⟩ := dayOfYear_bounds m
  obtain ⟨hn0, hn1⟩ := dayOfYear_bounds n
  obtain ⟨hmm0, hmm1, hstart, -⟩ := marchMonth_bounds hm0 hm1
  obtain ⟨hnm0, hnm1, -⟩ := marchMonth_bounds hn0 hn1
  have hcalendar := calendar_lt (y := marchYear m) (z := marchYear n) ⟨hmm0, hmm1⟩ ⟨hnm0, hnm1⟩
  rw [ofDays_eq, ofDays_eq]
  unfold Before
  dsimp only
  rcases marchYear_lt_or h with hyear | ⟨hyear, hday⟩
  · have := hcalendar (Or.inl hyear)
    omega
  · have hmonth := marchMonth_mono (Int.le_of_lt hday)
    rcases Int.lt_or_le (marchMonth (dayOfYear m)) (marchMonth (dayOfYear n)) with hlt | hge
    · have := hcalendar (Or.inr ⟨hyear, hlt⟩)
      omega
    · have heq : marchMonth (dayOfYear m) = marchMonth (dayOfYear n) := by omega
      rw [heq] at hstart
      rw [hyear, heq]
      omega

end Date

end PipelineRunner.Time
