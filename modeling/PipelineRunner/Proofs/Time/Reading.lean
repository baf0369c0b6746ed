import PipelineRunner.Proofs.Text.Digits
import PipelineRunner.Proofs.Time.Dates
import PipelineRunner.Proofs.Time.Order

/-!
# Reading instants

Each field of the text of an instant is read back as it was written, whatever follows it. So an
instant is read back from its text exactly if the calendar reaches its year and its nanoseconds are
within their second.
-/

namespace PipelineRunner.Instant

/-! ### Numbers -/

theorem isDigit_of_mem_padded {width n : Nat} {c : Char} (h : c ∈ padded width n) :
    c.isDigit = true := by
  rcases List.mem_append.mp h with h | h
  · rw [List.eq_of_mem_replicate h]
    rfl
  · exact Nat.isDigit_of_mem_toDigits (by decide) (by decide) h

theorem padded_ne_nil (width n : Nat) : padded width n ≠ [] := by
  intro h
  exact Nat.toDigits_ne_nil (List.append_eq_nil_iff.mp h).2

theorem ofDigits_padded (width n : Nat) : Text.ofDigits 10 (padded width n) = n := by
  rw [Text.ofDigits_eq fun c => isDigit_of_mem_padded, padded, Nat.ofDigitChars_append,
    Nat.ofDigitChars_replicate_zero, Nat.mul_zero, Nat.ofDigitChars_ten_toDigits]

theorem padded_length {width n : Nat} (hwidth : 0 < width) (hn : n < Nat.pow 10 width) :
    (padded width n).length = width := by
  rw [padded_eq_lastDigits hwidth hn, lastDigits_length]

theorem takeWhile_take {ds rest : List Char} {width : Nat} (hds : ∀ c ∈ ds, c.isDigit = true)
    (hle : ds.length ≤ width)
    (hrest : ds.length = width ∨ ∀ c ∈ rest.head?, c.isDigit = false) :
    ((ds ++ rest).take width).takeWhile Char.isDigit = ds := by
  rw [List.take_append, List.take_of_length_le hle]
  refine Text.takeWhile_run hds fun c hc => ?_
  rcases hrest with heq | hrest
  · rw [heq, Nat.sub_self, List.take_zero] at hc
    cases hc
  · refine hrest c ?_
    rw [List.head?_take] at hc
    split at hc
    · cases hc
    · exact hc

theorem digits?_append {ds rest : List Char} {width : Nat} (hne : ds ≠ [])
    (hds : ∀ c ∈ ds, c.isDigit = true) (hle : ds.length ≤ width)
    (hrest : ds.length = width ∨ ∀ c ∈ rest.head?, c.isDigit = false) :
    digits? width (ds ++ rest) = some (Text.ofDigits 10 ds, rest) := by
  rw [digits?]
  simp only [takeWhile_take hds hle hrest, List.isEmpty_iff, hne, if_false, List.drop_left]

theorem dropBlanks_of_not {c : Char} (hc : Text.isBlank c = false) (s : List Char) :
    Text.dropBlanks (c :: s) = c :: s := by
  rw [Text.dropBlanks, List.dropWhile_cons_of_neg (by simp [hc])]

theorem not_isBlank_of_isDigit {c : Char} (h : c.isDigit = true) : Text.isBlank c = false := by
  have hrange := Text.isDigit_bounds h
  simp [Text.isBlank]
  omega

theorem number?_padded {width n : Nat} (hwidth : 0 < width) (hn : n < Nat.pow 10 width)
    (rest : List Char) : number? width (padded width n ++ rest) = some (n, rest) := by
  have hlength := padded_length hwidth hn
  have hdrop : Text.dropBlanks (padded width n ++ rest) = padded width n ++ rest := by
    cases h : padded width n with
    | nil => exact absurd h (padded_ne_nil width n)
    | cons c ds =>
      have hc : c ∈ padded width n := h ▸ List.mem_cons_self
      exact dropBlanks_of_not (not_isBlank_of_isDigit (isDigit_of_mem_padded hc)) _
  rw [number?, hdrop, digits?_append (padded_ne_nil width n) (fun c => isDigit_of_mem_padded)
    (Nat.le_of_eq hlength) (Or.inl hlength), ofDigits_padded]

theorem mark?_cons {c : Char} (hc : Text.isBlank c = false) (rest : List Char) :
    mark? c (c :: rest) = some rest := by
  rw [mark?, dropBlanks_of_not hc]
  simp

/-! ### The fields of a text -/

theorem year?_of_isDigit {c : Char} (hc : c.isDigit = true) (s : List Char) :
    year? (c :: s) = (number? 4 (c :: s)).map fun p => ((p.1 : Int), p.2) := by
  rw [year?, number?, dropBlanks_of_not (not_isBlank_of_isDigit hc)]
  split
  case h_3 => rfl
  -- a sign is no digit
  all_goals
    rename_i heq
    cases heq
    exact absurd hc (by decide)

theorem year?_yearChars (y : Int) {rest : List Char}
    (hrest : ∀ c ∈ rest.head?, c.isDigit = false) :
    year? (yearChars y ++ rest) = some (y, rest) := by
  unfold yearChars
  split
  · rename_i hy
    have hn : y.toNat < Nat.pow 10 4 := by
      show y.toNat < 10000
      omega
    have hread := number?_padded (by decide) hn rest
    cases h : padded 4 y.toNat with
    | nil => exact absurd h (padded_ne_nil 4 y.toNat)
    | cons c ds =>
      have hc : c.isDigit = true := isDigit_of_mem_padded (h ▸ List.mem_cons_self)
      rw [h, List.cons_append] at hread
      rw [List.cons_append, year?_of_isDigit hc, hread, Option.map_some, Int.toNat_of_nonneg hy.1]
  · have hle : (padded 4 y.natAbs).length ≤ (padded 4 y.natAbs ++ rest).length := by
      rw [List.length_append]
      exact Nat.le_add_right ..
    have hread := digits?_append (padded_ne_nil 4 y.natAbs) (fun c => isDigit_of_mem_padded) hle
      (Or.inr hrest)
    rw [ofDigits_padded] at hread
    split
    · rename_i hneg
      rw [List.cons_append, year?, dropBlanks_of_not (by decide)]
      simp only [hread, Option.map_some, show -(y.natAbs : Int) = y by omega]
    · rename_i hy hneg
      rw [List.cons_append, year?, dropBlanks_of_not (by decide)]
      simp only [hread, Option.map_some, show (y.natAbs : Int) = y by omega]

theorem isDigit_of_mem_lastDigits {width n : Nat} {c : Char} (h : c ∈ lastDigits width n) :
    c.isDigit = true := by
  induction width generalizing n with
  | zero => cases h
  | succ width ih =>
    rcases List.mem_append.mp h with h | h
    · exact ih h
    · rw [List.mem_singleton.mp h, Nat.isDigit_digitChar]
      exact decide_eq_true (Nat.mod_lt n (by decide))

theorem ofDigitChars_lastDigits {width n : Nat} (hwidth : 0 < width) (hn : n < Nat.pow 10 width) :
    Nat.ofDigitChars 10 (lastDigits width n) 0 = n := by
  rw [← Text.ofDigits_eq fun c => isDigit_of_mem_lastDigits, ← padded_eq_lastDigits hwidth hn,
    ofDigits_padded]

theorem fraction?_fractionChars {nanos : Nat} (hn : nanos < nanosPerSecond) {rest : List Char}
    (hrest : ∀ c ∈ rest.head?, c.isDigit = false ∧ c ≠ '.') :
    fraction? (fractionChars nanos ++ rest) = some (nanos, rest) := by
  by_cases h0 : nanos = 0
  · rw [fractionChars, if_pos h0, List.nil_append, h0, fraction?]
    intro r hr
    exact (hrest '.' (by rw [hr]; rfl)).2 rfl
  · obtain ⟨ds, k, hds, hcut, hlen, -⟩ := exists_fraction h0 hn
    have hdigits : ∀ c ∈ ds, c.isDigit = true := fun c hc =>
      isDigit_of_mem_lastDigits (hcut ▸ List.mem_append_left _ hc)
    have hvalue : Text.ofDigits 10 ds * Nat.pow 10 k = nanos := by
      have hall : Nat.ofDigitChars 10 (lastDigits 9 nanos) 0 = nanos :=
        ofDigitChars_lastDigits (by decide) hn
      rw [hcut, Nat.ofDigitChars_append, Nat.ofDigitChars_replicate_zero,
        ← Text.ofDigits_eq hdigits, Nat.mul_comm] at hall
      exact hall
    have hne : ds ≠ [] := by
      rintro rfl
      exact h0 (by rw [← hvalue]; exact Nat.zero_mul _)
    have htaken : ((ds ++ rest).take 9).takeWhile Char.isDigit = ds :=
      takeWhile_take hdigits (by omega) (Or.inr fun c hc => (hrest c hc).1)
    have hdropped : rest.dropWhile Char.isDigit = rest :=
      @Text.dropWhile_run Char.isDigit [] rest nofun fun c hc => (hrest c hc).1
    rw [hds, List.cons_append, fraction?]
    simp only [htaken, List.isEmpty_iff, hne, if_false, List.drop_left]
    rw [hdropped, show 9 - ds.length = k by omega, hvalue]

/-! ### Whole texts -/

/-- The instants that a text names: those whose year the calendar reaches, with nanoseconds that
are within their second. -/
structure Nameable (t : Instant) : Prop where
  year : yearInRange (Time.Date.ofDays t.dayNumber).year = true
  inSecond : InSecond t.secondOfDay.toNat t.nanos

instance (t : Instant) : Decidable t.Nameable :=
  decidable_of_iff
    (yearInRange (Time.Date.ofDays t.dayNumber).year = true ∧
      InSecond t.secondOfDay.toNat t.nanos)
    ⟨fun ⟨h0, h1⟩ => ⟨h0, h1⟩, fun ⟨h0, h1⟩ => ⟨h0, h1⟩⟩

theorem ofText?_fields {d : Time.Date} {hour minute second nanos : Nat} (hmonth : d.month < 100)
    (hday : d.day < 100) (hhour : hour < 100) (hminute : minute < 100) (hsecond : second < 100)
    (hnanos : nanos < nanosPerSecond) :
    ofText? (String.ofList (dateChars d ++ 'T' :: (padded 2 hour ++ ':' :: padded 2 minute ++
      ':' :: padded 2 second ++ fractionChars nanos) ++ ['Z'])) =
    ofParts? d hour minute second nanos 0 := by
  have hnumber : ∀ {n : Nat} (hn : n < 100) (rest : List Char),
      number? 2 (padded 2 n ++ rest) = some (n, rest) := fun hn rest =>
    number?_padded (by decide) hn rest
  have hfraction : fraction? (fractionChars nanos ++ ['Z']) = some (nanos, ['Z']) :=
    fraction?_fractionChars hnanos (by simp)
  rw [ofText?, String.toList_ofList, dateChars]
  simp only [List.append_assoc, List.cons_append]
  rw [year?_yearChars d.year (by simp)]
  simp only [Option.bind_eq_bind, Option.bind_some, mark?_cons (c := '-') rfl,
    mark?_cons (c := ':') rfl, hnumber hmonth, hnumber hday, hnumber hhour, hnumber hminute,
    hnumber hsecond, hfraction, dropBlanks_of_not (c := 'Z') rfl]
  rfl

theorem ofParts?_self {t : Instant} (h : t.Nameable) :
    ofParts? (Time.Date.ofDays t.dayNumber) (t.secondOfDay.toNat / 3600)
      (t.secondOfDay.toNat / 60 % 60) (t.secondOfDay.toNat % 60 + t.nanos / nanosPerSecond)
      (t.nanos % nanosPerSecond) 0 = some t := by
  have hseconds : t.seconds = t.dayNumber * 86400 + t.secondOfDay.toNat ∧
      t.secondOfDay.toNat < 86400 := by
    rw [secondOfDay_eq, dayNumber_eq]
    omega
  have hin := h.inSecond
  unfold InSecond at hin
  unfold nanosPerSecond at *
  generalize t.secondOfDay.toNat = s at *
  generalize hleap : (if s % 60 + t.nanos / 1000000000 = 60 then 1 else 0) = leap
  have hclock : s % 60 + t.nanos / 1000000000 - leap = s % 60 := by
    split at hleap <;> omega
  have hnanos : t.nanos % 1000000000 + leap * 1000000000 = t.nanos := by
    split at hleap <;> omega
  have hself : (⟨t.dayNumber * 86400 + ((s / 3600 : Nat) * 3600 + (s / 60 % 60 : Nat) * 60 +
      (s % 60 : Nat)) - 0, t.nanos⟩ : Instant) = t := by
    have hsum : t.dayNumber * 86400 + ((s / 3600 : Nat) * 3600 + (s / 60 % 60 : Nat) * 60 +
        (s % 60 : Nat)) - 0 = t.seconds := by omega
    rw [hsum]
  unfold ofParts?
  rw [if_pos]
  · dsimp only
    unfold nanosPerSecond secondsPerDay
    rw [hleap, Time.Date.toDays_ofDays, hclock, hnanos, hself, if_pos h.year]
  · rw [h.year, Time.Date.isValid_ofDays]
    simp
    omega

theorem nameable_of_ofParts? {d : Time.Date} {hour minute second nanos : Nat} {offset : Int}
    {t : Instant} (hnanos : nanos < nanosPerSecond) (hoffset : offset % 60 = 0)
    (h : ofParts? d hour minute second nanos offset = some t) : t.Nameable := by
  unfold nanosPerSecond at hnanos
  unfold ofParts? nanosPerSecond secondsPerDay at h
  simp only [Option.ite_none_right_eq_some, Bool.and_eq_true, decide_eq_true_eq,
    Option.some.injEq] at h
  obtain ⟨⟨⟨⟨⟨-, hhour⟩, hminute⟩, hsecond⟩, -⟩, hyear, rfl⟩ := h
  refine ⟨hyear, ?_⟩
  rw [secondOfDay_eq]
  unfold InSecond nanosPerSecond
  dsimp only
  by_cases hleap : second = 60
  · rw [if_pos hleap]
    omega
  · rw [if_neg hleap]
    omega

theorem fraction?_lt {s rest : List Char} {nanos : Nat} (h : fraction? s = some (nanos, rest)) :
    nanos < nanosPerSecond := by
  unfold fraction? at h
  split at h
  · rename_i r
    dsimp only at h
    have hdigits : ∀ c ∈ (r.take 9).takeWhile Char.isDigit, c.isDigit = true :=
      List.all_eq_true.mp List.all_takeWhile
    have hle : ((r.take 9).takeWhile Char.isDigit).length ≤ 9 :=
      Nat.le_trans (List.takeWhile_prefix _).length_le (List.length_take_le 9 r)
    have hlt := Text.ofDigits_lt hdigits
    generalize (r.take 9).takeWhile Char.isDigit = ds at *
    have hpow : Nat.pow 10 ds.length * Nat.pow 10 (9 - ds.length) = nanosPerSecond := by
      show 10 ^ ds.length * 10 ^ (9 - ds.length) = 10 ^ 9
      rw [← Nat.pow_add, Nat.add_sub_cancel' hle]
    simp only [Option.ite_none_left_eq_some, Option.some.injEq, Prod.mk.injEq] at h
    obtain ⟨-, rfl, -⟩ := h
    rw [← hpow]
    exact Nat.mul_lt_mul_of_pos_right hlt (Nat.pow_pos (by decide))
  · cases h
    decide

theorem offset?_mod {s rest : List Char} {offset : Int} (h : offset? s = some (offset, rest)) :
    offset % 60 = 0 := by
  unfold offset? at h
  split at h
  · cases h
    rfl
  · split at h
    · cases h
      rfl
    · cases h
      rfl
    · split at h
      · split at h
        · cases h
        · split at h
          · cases h
          · simp only [Option.some.injEq, Prod.mk.injEq] at h
            obtain ⟨rfl, -⟩ := h
            split <;> omega
      · cases h
    · cases h

theorem nameable_of_ofText? {s : String} {t : Instant} (h : ofText? s = some t) : t.Nameable := by
  unfold ofText? at h
  obtain ⟨⟨year, s₁⟩, -, h⟩ := Option.bind_eq_some_iff.mp h
  obtain ⟨s₂, -, h⟩ := Option.bind_eq_some_iff.mp h
  obtain ⟨⟨month, s₃⟩, -, h⟩ := Option.bind_eq_some_iff.mp h
  obtain ⟨s₄, -, h⟩ := Option.bind_eq_some_iff.mp h
  obtain ⟨⟨day, s₅⟩, -, h⟩ := Option.bind_eq_some_iff.mp h
  -- the separator between date and time of day does not matter
  dsimp only at h
  split at h
  case h_4 => cases h
  all_goals
    obtain ⟨s₆, -, h⟩ := Option.bind_eq_some_iff.mp h
    obtain ⟨⟨hour, s₇⟩, -, h⟩ := Option.bind_eq_some_iff.mp h
    obtain ⟨s₈, -, h⟩ := Option.bind_eq_some_iff.mp h
    obtain ⟨⟨minute, s₉⟩, -, h⟩ := Option.bind_eq_some_iff.mp h
    obtain ⟨s₁₀, -, h⟩ := Option.bind_eq_some_iff.mp h
    obtain ⟨⟨second, s₁₁⟩, -, h⟩ := Option.bind_eq_some_iff.mp h
    obtain ⟨⟨nanos, s₁₂⟩, hnanos, h⟩ := Option.bind_eq_some_iff.mp h
    obtain ⟨⟨offset, s₁₃⟩, hoffset, h⟩ := Option.bind_eq_some_iff.mp h
    rw [Option.ite_none_right_eq_some] at h
    exact nameable_of_ofParts? (fraction?_lt hnanos) (offset?_mod hoffset) h.2

theorem ofText?_toText_iff {t : Instant} : ofText? t.toText = some t ↔ t.Nameable := by
  refine ⟨nameable_of_ofText?, fun h => ?_⟩
  have hday : t.secondOfDay.toNat < 86400 := by
    rw [secondOfDay_eq]
    omega
  have hin := h.inSecond
  unfold InSecond nanosPerSecond at hin
  obtain ⟨hmonth, hdays⟩ := Time.Date.ofDays_bounds t.dayNumber
  have hsecond : t.secondOfDay.toNat % 60 + t.nanos / nanosPerSecond < 100 := by
    unfold nanosPerSecond
    omega
  exact (ofText?_fields (by omega) (by omega) (by omega) (by omega) hsecond
    (Nat.mod_lt _ (by decide))).trans (ofParts?_self h)

end PipelineRunner.Instant
