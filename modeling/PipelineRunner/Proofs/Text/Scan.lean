import PipelineRunner.Text.Search
import Mathlib.Data.List.Infix

/-!
# Scanning a text

A scan looks for words from left to right: it passes over a word that stands where it looks, and
over one character where none does. Replacing a word is such a scan, so it leaves a text without the
word as it is.
-/

namespace PipelineRunner.Text

/-! ### Induction along a scan -/

/-- What holds of the empty text, and is kept by a word in front and by a character in front that
starts no word, holds of every text. -/
theorem scan_induction {word : List Char → Prop} (hne : ∀ w, word w → w ≠ [])
    {P : List Char → Prop} (nil : P []) (found : ∀ w s, word w → P s → P (w ++ s))
    (kept : ∀ c s, (∀ w, word w → ¬ w <+: c :: s) → P s → P (c :: s)) (s : List Char) : P s := by
  -- on the length: a word that is found takes more than one character off the text
  induction hn : s.length using Nat.strong_induction_on generalizing s with
  | _ n ih =>
    cases s with
    | nil => exact nil
    | cons c r =>
      by_cases h : ∃ w, word w ∧ w <+: c :: r
      · obtain ⟨w, hw, rest, hrest⟩ := h
        have hpos : 0 < w.length := List.length_pos_iff.mpr (hne w hw)
        have hlen : w.length + rest.length = n := by
          rw [← List.length_append, hrest, hn]
        rw [← hrest]
        exact found w rest hw (ih rest.length (by omega) rest rfl)
      · have hnone : ∀ w, word w → ¬ w <+: c :: r := fun w hw hp => h ⟨w, hw, hp⟩
        have hlen : r.length < n := by
          rw [List.length_cons] at hn
          omega
        exact kept c r hnone (ih r.length hlen r rfl)

/-! ### Replacing along a scan -/

variable {v m s : List Char}

theorem replaceFrom_eq_drop (v m : List Char) (skip : Nat) (s : List Char) :
    replaceFrom v m skip s = replaceFrom v m 0 (s.drop skip) := by
  induction skip generalizing s with
  | zero => rw [List.drop_zero]
  | succ skip ih =>
    cases s with
    | nil => rw [List.drop_nil, replaceFrom, replaceFrom]
    | cons c r => rw [replaceFrom, ih, List.drop_succ_cons]

theorem replaceChars_of_ne_nil (hv : v ≠ []) : replaceChars v m s = replaceFrom v m 0 s := by
  have hempty : ¬ v.isEmpty = true := by simpa using hv
  rw [replaceChars, if_neg hempty]

theorem replaceChars_nil_word (m s : List Char) : replaceChars [] m s = s := rfl

theorem replaceChars_nil (v m : List Char) : replaceChars v m [] = [] := by
  unfold replaceChars
  split
  · rfl
  · rfl

theorem replaceChars_found (hv : v ≠ []) (m s : List Char) :
    replaceChars v m (v ++ s) = m ++ replaceChars v m s := by
  rw [replaceChars_of_ne_nil hv, replaceChars_of_ne_nil hv]
  cases v with
  | nil => exact absurd rfl hv
  | cons d u =>
    have hp : (d :: u).isPrefixOf (d :: (u ++ s)) = true := by
      rw [List.isPrefixOf_iff_prefix, ← List.cons_append]
      exact List.prefix_append _ _
    have hskip : (d :: u).length - 1 = u.length := by
      rw [List.length_cons]
      omega
    rw [List.cons_append, replaceFrom, if_pos hp, hskip, replaceFrom_eq_drop, List.drop_left]

theorem replaceChars_kept {c : Char} (h : ¬ v <+: c :: s) (m : List Char) :
    replaceChars v m (c :: s) = c :: replaceChars v m s := by
  have hv : v ≠ [] := by
    rintro rfl
    exact h List.nil_prefix
  have hp : ¬ v.isPrefixOf (c :: s) = true := fun hp => h (List.isPrefixOf_iff_prefix.mp hp)
  rw [replaceChars_of_ne_nil hv, replaceChars_of_ne_nil hv, replaceFrom, if_neg hp]

theorem replace_induction (hv : v ≠ []) {P : List Char → Prop} (nil : P [])
    (found : ∀ s, P s → P (v ++ s)) (kept : ∀ c s, ¬ v <+: c :: s → P s → P (c :: s))
    (s : List Char) : P s := by
  have hne : ∀ w, w = v → w ≠ [] := by
    rintro w rfl
    exact hv
  refine scan_induction hne nil ?_ ?_ s
  · rintro w r rfl
    exact found r
  · intro c r hnone
    exact kept c r (hnone v rfl)

theorem replaceChars_eq_self (h : ¬ v <:+: s) (m : List Char) : replaceChars v m s = s := by
  induction s with
  | nil => exact replaceChars_nil v m
  | cons c r ih =>
    have hp : ¬ v <+: c :: r := fun hp => h hp.isInfix
    have hr : ¬ v <:+: r := fun hr => h (List.infix_cons hr)
    rw [replaceChars_kept hp, ih hr]

theorem replaceChars_ne_nil (hm : m ≠ []) (v : List Char) (hs : s ≠ []) :
    replaceChars v m s ≠ [] := by
  by_cases hv : v = []
  · rw [hv, replaceChars_nil_word]
    exact hs
  · induction s using replace_induction hv with
    | nil => exact absurd rfl hs
    | found s _ =>
      rw [replaceChars_found hv]
      exact List.append_ne_nil_of_left_ne_nil hm _
    | kept c s hc _ =>
      rw [replaceChars_kept hc]
      exact List.cons_ne_nil _ _

theorem replaceChars_first (hv : v ≠ []) (h : v <:+: s) (m : List Char) :
    ∃ x y, s = x ++ (v ++ y) ∧ replaceChars v m s = x ++ (m ++ replaceChars v m y) := by
  induction s using replace_induction hv with
  | nil => exact absurd (List.infix_nil.mp h) hv
  | found s _ => exact ⟨[], s, rfl, replaceChars_found hv m s⟩
  | kept c s hc ih =>
    have hs : v <:+: s := (List.infix_cons_iff.mp h).resolve_left hc
    obtain ⟨x, y, hxy, hreplaced⟩ := ih hs
    refine ⟨c :: x, y, ?_, ?_⟩
    · rw [hxy, List.cons_append]
    · rw [replaceChars_kept hc, hreplaced, List.cons_append]

end PipelineRunner.Text
