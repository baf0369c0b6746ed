import PipelineRunner.Text.Digits

/-!
# Reading decimal digits

The value of a run of decimal digits, and where a run of characters of one kind ends in a text.
-/

namespace PipelineRunner.Text

theorem isDigit_bounds {c : Char} (h : c.isDigit = true) : 48 ≤ c.toNat ∧ c.toNat ≤ 57 := by
  simpa [Char.isDigit, UInt32.le_iff_toNat_le] using h

theorem digit?_of_isDigit {c : Char} (h : c.isDigit = true) :
    digit? 10 c = some (c.toNat - 48) := by
  have hrange := isDigit_bounds h
  simp only [digit?, h, if_true, Option.filter_some, decide_eq_true_eq]
  rw [if_pos (by omega)]

theorem foldl_digits_eq {ds : List Char} (h : ∀ c ∈ ds, c.isDigit = true) (n : Nat) :
    ds.foldl (fun n c => n * 10 + (digit? 10 c).getD 0) n = Nat.ofDigitChars 10 ds n := by
  induction ds generalizing n with
  | nil => rfl
  | cons c ds ih =>
    rw [List.foldl_cons, ih (fun d hd => h d (List.mem_cons_of_mem c hd)),
      digit?_of_isDigit (h c List.mem_cons_self), Option.getD_some, Nat.mul_comm]
    rfl

theorem ofDigits_eq {ds : List Char} (h : ∀ c ∈ ds, c.isDigit = true) :
    ofDigits 10 ds = Nat.ofDigitChars 10 ds 0 :=
  foldl_digits_eq h 0

theorem ofDigits_toDigits (n : Nat) : ofDigits 10 (Nat.toDigits 10 n) = n := by
  rw [ofDigits_eq fun c hc => Nat.isDigit_of_mem_toDigits (by decide) (by decide) hc,
    Nat.ofDigitChars_ten_toDigits]

theorem ofDigitChars_lt {ds : List Char} (h : ∀ c ∈ ds, c.isDigit = true) (n : Nat) :
    Nat.ofDigitChars 10 ds n < (n + 1) * Nat.pow 10 ds.length := by
  induction ds generalizing n with
  | nil => exact Nat.lt_of_lt_of_eq (Nat.lt_succ_self n) (Nat.mul_one (n + 1)).symm
  | cons c ds ih =>
    have hc := isDigit_bounds (h c List.mem_cons_self)
    have hrest := ih (fun d hd => h d (List.mem_cons_of_mem c hd)) (10 * n + (c.toNat - 48))
    have hle : 10 * n + (c.toNat - 48) + 1 ≤ (n + 1) * 10 := by omega
    have hpow : (n + 1) * Nat.pow 10 (c :: ds).length = (n + 1) * 10 * Nat.pow 10 ds.length := by
      rw [Nat.mul_assoc, Nat.mul_comm 10]
      rfl
    rw [hpow]
    exact Nat.lt_of_lt_of_le hrest (Nat.mul_le_mul_right _ hle)

theorem ofDigits_lt {ds : List Char} (h : ∀ c ∈ ds, c.isDigit = true) :
    ofDigits 10 ds < Nat.pow 10 ds.length := by
  have hlt := ofDigitChars_lt h 0
  rwa [← ofDigits_eq h, Nat.zero_add, Nat.one_mul] at hlt

/-! ### Runs of characters -/

section
variable {p : Char → Bool} {run rest : List Char}

theorem takeWhile_run (h : ∀ c ∈ run, p c = true) (hrest : ∀ c ∈ rest.head?, p c = false) :
    (run ++ rest).takeWhile p = run := by
  rw [List.takeWhile_append_of_pos h]
  cases rest with
  | nil => simp
  | cons c rest => rw [List.takeWhile_cons_of_neg (by simp [hrest c rfl]), List.append_nil]

theorem dropWhile_run (h : ∀ c ∈ run, p c = true) (hrest : ∀ c ∈ rest.head?, p c = false) :
    (run ++ rest).dropWhile p = rest := by
  rw [List.dropWhile_append_of_pos h]
  cases rest with
  | nil => rfl
  | cons c rest => rw [List.dropWhile_cons_of_neg (by simp [hrest c rfl])]

end

end PipelineRunner.Text
