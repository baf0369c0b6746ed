import PipelineRunner.Time.Instant

/-!
# Order of padded numerals

Numbers written with the same number of digits are ordered as texts as they are as numbers. A
fraction of a second is written without the zeros at its end; it is still ordered by its value,
because what was cut off could only be less than any digit.
-/

namespace PipelineRunner.Instant

/-! ### Lexicographic order -/

section
variable {l l' r r' : List Char}

theorem append_lt_append (hlen : l.length = l'.length) (h : l < l') : l ++ r < l' ++ r' := by
  induction l generalizing l' with
  | nil =>
    cases l' with
    | nil => exact absurd h (List.not_lt_nil [])
    | cons d l' => cases hlen
  | cons c l ih =>
    cases l' with
    | nil => cases hlen
    | cons d l' =>
      simp only [List.length_cons, Nat.succ.injEq] at hlen
      rw [List.cons_append, List.cons_append, List.cons_lt_cons_iff]
      rcases List.cons_lt_cons_iff.mp h with hc | ⟨hc, hl⟩
      · exact Or.inl hc
      · exact Or.inr ⟨hc, ih hlen hl⟩

theorem cons_lt_cons (c : Char) (h : r < r') : c :: r < c :: r' :=
  List.cons_lt_cons_iff.mpr (Or.inr ⟨rfl, h⟩)

theorem not_lt_replicate_zero (h : ∀ c ∈ l, '0' ≤ c) :
    ¬ l < List.replicate l.length '0' := by
  induction l with
  | nil => exact List.not_lt_nil []
  | cons c l ih =>
    rw [List.length_cons, List.replicate_succ, List.cons_lt_cons_iff]
    have hc : '0' ≤ c := h c List.mem_cons_self
    rintro (hlt | ⟨-, hlt⟩)
    · exact Char.not_lt.mpr hc hlt
    · exact ih (fun d hd => h d (List.mem_cons_of_mem c hd)) hlt

/-- Texts that are ordered once zeros fill them up are ordered without the zeros. -/
theorem lt_of_append_zeros {p q : Nat} (hl : ∀ c ∈ l, '0' ≤ c)
    (hlen : l.length + p = l'.length + q)
    (h : l ++ List.replicate p '0' < l' ++ List.replicate q '0') : l < l' := by
  induction l generalizing l' with
  | nil =>
    cases l' with
    | nil =>
      have hpq : p = q := by simpa using hlen
      subst hpq
      exact absurd h (List.lt_irrefl _)
    | cons d l' => exact List.nil_lt_cons d l'
  | cons c l ih =>
    cases l' with
    | nil =>
      -- zeros are less than nothing of the same length that is made of digits
      have hq : q = (c :: l ++ List.replicate p '0').length := by
        rw [List.length_append, List.length_replicate, hlen, List.length_nil, Nat.zero_add]
      have hall : ∀ d ∈ c :: l ++ List.replicate p '0', '0' ≤ d := by
        intro d hd
        rcases List.mem_append.mp hd with hd | hd
        · exact hl d hd
        · obtain rfl := List.eq_of_mem_replicate hd
          exact Char.le_refl '0'
      rw [List.nil_append, hq] at h
      exact absurd h (not_lt_replicate_zero hall)
    | cons d l' =>
      rw [List.cons_append, List.cons_append, List.cons_lt_cons_iff] at h
      rw [List.cons_lt_cons_iff]
      rcases h with h | ⟨hd, h⟩
      · exact Or.inl h
      · refine Or.inr ⟨hd, ih (fun x hx => hl x (List.mem_cons_of_mem c hx)) ?_ h⟩
        simp only [List.length_cons] at hlen
        omega

end

/-! ### Digits -/

def lastDigits : Nat → Nat → List Char
  | 0, _ => []
  | width + 1, n => lastDigits width (n / 10) ++ [Nat.digitChar (n % 10)]

theorem digitChar_lt {m n : Nat} (h : m < n) (hn : n < 10) : m.digitChar < n.digitChar := by
  have hm : m.digitChar.toNat = 48 + m := Nat.toNat_digitChar_of_lt_ten (by omega)
  have hn : n.digitChar.toNat = 48 + n := Nat.toNat_digitChar_of_lt_ten hn
  show m.digitChar.toNat < n.digitChar.toNat
  omega

theorem zero_le_digitChar {n : Nat} (hn : n < 10) : '0' ≤ n.digitChar := by
  have hn : n.digitChar.toNat = 48 + n := Nat.toNat_digitChar_of_lt_ten hn
  show 48 ≤ n.digitChar.toNat
  omega

theorem lastDigits_length (width n : Nat) : (lastDigits width n).length = width := by
  induction width generalizing n with
  | zero => rfl
  | succ width ih => rw [lastDigits, List.length_append, ih, List.length_singleton]

theorem zero_le_of_mem_lastDigits {width n : Nat} {c : Char} (h : c ∈ lastDigits width n) :
    '0' ≤ c := by
  induction width generalizing n with
  | zero => cases h
  | succ width ih =>
    rcases List.mem_append.mp h with h | h
    · exact ih h
    · rw [List.mem_singleton.mp h]
      exact zero_le_digitChar (Nat.mod_lt n (by decide))

theorem lastDigits_zero (width : Nat) : lastDigits width 0 = List.replicate width '0' := by
  induction width with
  | zero => rfl
  | succ width ih =>
    rw [List.replicate_succ', ← ih]
    rfl

theorem lastDigits_append_zeros (width k n : Nat) :
    lastDigits (width + k) (n * Nat.pow 10 k) = lastDigits width n ++ List.replicate k '0' := by
  induction k with
  | zero =>
    rw [List.replicate_zero, List.append_nil]
    exact congrArg _ (Nat.mul_one n)
  | succ k ih =>
    have hpow : n * Nat.pow 10 (k + 1) = n * Nat.pow 10 k * 10 := (Nat.mul_assoc ..).symm
    rw [hpow, List.replicate_succ', ← List.append_assoc, ← ih, ← Nat.add_assoc, lastDigits,
      Nat.mul_div_cancel _ (by decide), Nat.mul_mod_left]
    rfl

theorem lastDigits_lt {width m n : Nat} (h : m < n) (hn : n < Nat.pow 10 width) :
    lastDigits width m < lastDigits width n := by
  induction width generalizing m n with
  | zero =>
    have : n < 1 := hn
    omega
  | succ width ih =>
    have hn' : n < Nat.pow 10 width * 10 := hn
    rw [lastDigits, lastDigits]
    rcases Nat.lt_or_ge (m / 10) (n / 10) with hlt | hge
    · refine append_lt_append ?_ (ih hlt (by omega))
      rw [lastDigits_length, lastDigits_length]
    · have heq : m / 10 = n / 10 := by omega
      rw [heq]
      refine List.append_left_lt (List.cons_lt_cons_iff.mpr (Or.inl ?_))
      exact digitChar_lt (by omega) (by omega)

theorem padded_eq_lastDigits {width n : Nat} (hwidth : 0 < width) (hn : n < Nat.pow 10 width) :
    padded width n = lastDigits width n := by
  induction width generalizing n with
  | zero => cases hwidth
  | succ width ih =>
    have hn' : n < Nat.pow 10 width * 10 := hn
    unfold padded
    dsimp only
    rcases Nat.lt_or_ge n 10 with hlt | hge
    · rw [Nat.toDigits_of_lt_base hlt, lastDigits, Nat.div_eq_of_lt hlt, Nat.mod_eq_of_lt hlt,
        lastDigits_zero]
      rfl
    · have hwidth' : 0 < width := by
        refine Nat.pos_of_ne_zero fun h => ?_
        subst h
        have : n < 1 * 10 := hn'
        omega
      have hrest := ih hwidth' (n := n / 10) (by omega)
      unfold padded at hrest
      dsimp only at hrest
      rw [Nat.toDigits_of_base_le (by decide) hge, lastDigits, ← hrest, List.length_append,
        List.length_singleton, ← List.append_assoc, Nat.add_sub_add_right]

/-! ### Fields of a text -/

theorem padded_append_lt {width m n : Nat} {r r' : List Char} (hwidth : 0 < width)
    (hm : m < Nat.pow 10 width) (hn : n < Nat.pow 10 width) (h : m < n ∨ m = n ∧ r < r') :
    padded width m ++ r < padded width n ++ r' := by
  rw [padded_eq_lastDigits hwidth hm, padded_eq_lastDigits hwidth hn]
  rcases h with h | ⟨rfl, h⟩
  · refine append_lt_append ?_ (lastDigits_lt h hn)
    rw [lastDigits_length, lastDigits_length]
  · exact List.append_left_lt h

theorem exists_fraction {n : Nat} (h0 : n ≠ 0) (hn : n < nanosPerSecond) :
    ∃ ds k, fractionChars n = '.' :: ds ∧ lastDigits 9 n = ds ++ List.replicate k '0' ∧
      ds.length + k = 9 ∧ ∀ c ∈ ds, '0' ≤ c := by
  have hn : n < 1000000000 := hn
  unfold fractionChars
  rw [if_neg h0]
  split
  · rename_i h6
    have hlt : n / 1000000 < Nat.pow 10 3 := by
      show n / 1000000 < 1000
      omega
    have hmul : n / 1000000 * Nat.pow 10 6 = n := Nat.div_mul_cancel (Nat.dvd_of_mod_eq_zero h6)
    refine ⟨lastDigits 3 (n / 1000000), 6, ?_, ?_, ?_, fun c => zero_le_of_mem_lastDigits⟩
    · rw [padded_eq_lastDigits (by decide) hlt]
    · rw [← lastDigits_append_zeros, hmul]
    · rw [lastDigits_length]
  · split
    · rename_i h3
      have hlt : n / 1000 < Nat.pow 10 6 := by
        show n / 1000 < 1000000
        omega
      have hmul : n / 1000 * Nat.pow 10 3 = n := Nat.div_mul_cancel (Nat.dvd_of_mod_eq_zero h3)
      refine ⟨lastDigits 6 (n / 1000), 3, ?_, ?_, ?_, fun c => zero_le_of_mem_lastDigits⟩
      · rw [padded_eq_lastDigits (by decide) hlt]
      · rw [← lastDigits_append_zeros, hmul]
      · rw [lastDigits_length]
    · refine ⟨lastDigits 9 n, 0, ?_, ?_, ?_, fun c => zero_le_of_mem_lastDigits⟩
      · rw [padded_eq_lastDigits (by decide) hn]
      · rw [List.replicate_zero, List.append_nil]
      · rw [lastDigits_length]

theorem fractionChars_lt {m n : Nat} (h : m < n) (hn : n < nanosPerSecond) :
    fractionChars m < fractionChars n := by
  obtain ⟨ds, k, hds, hcut, hlen, -⟩ := exists_fraction (by omega) hn
  rw [hds]
  by_cases hm : m = 0
  · rw [hm]
    exact List.nil_lt_cons '.' ds
  · obtain ⟨es, j, hes, hcut', hlen', hzero⟩ := exists_fraction hm (Nat.lt_trans h hn)
    rw [hes]
    have hlt : lastDigits 9 m < lastDigits 9 n := lastDigits_lt h hn
    rw [hcut, hcut'] at hlt
    exact cons_lt_cons '.' (lt_of_append_zeros hzero (by omega) hlt)

end PipelineRunner.Instant
