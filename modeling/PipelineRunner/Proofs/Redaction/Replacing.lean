import PipelineRunner.Proofs.Text.Scan

/-!
# What replacing leaves of a text

A word that does not overlap the mark can meet a mark nowhere: where it starts before a mark it ends
before it. So along the scan that puts marks into a text, the word starts in the new text only where
it started in the old one, and it is gone if it was the one to be replaced.
-/

namespace PipelineRunner.Text

/-! ### Words that overlap at no end -/

/-- `v` and `m` cannot share characters where they meet, and neither is a part of the other. -/
structure Apart (v m : List Char) : Prop where
  front : ∀ p, p ≠ [] → p <+: v → ¬ p <:+ m
  back : ∀ q, q ≠ [] → q <:+ v → ¬ q <+: m
  not_inside : ¬ v <:+: m
  not_around : ¬ m <:+: v

theorem Apart.ne_nil {v m : List Char} (h : Apart v m) : v ≠ [] := by
  rintro rfl
  exact h.not_inside List.nil_infix

theorem Apart.symm {v m : List Char} (h : Apart v m) : Apart m v where
  front := fun p hp hpm hpv => h.back p hp hpv hpm
  back := fun q hq hqm hqv => h.front q hq hqv hqm
  not_inside := h.not_around
  not_around := h.not_inside

theorem apart_iff_inits (v m : List Char) :
    Apart v m ↔ (∀ p ∈ v.inits, p ≠ [] → ¬ p <:+ m) ∧ (∀ q ∈ m.inits, q ≠ [] → ¬ q <:+ v) ∧
      ¬ v <:+: m ∧ ¬ m <:+: v := by
  constructor
  · intro h
    refine ⟨fun p hp hne => ?_, fun q hq hne hqv => ?_, h.not_inside, h.not_around⟩
    · exact h.front p hne ((List.mem_inits p v).mp hp)
    · exact h.back q hne hqv ((List.mem_inits q m).mp hq)
  · rintro ⟨hfront, hback, hinside, haround⟩
    refine ⟨fun p hne hp => ?_, fun q hne hqv hqm => ?_, hinside, haround⟩
    · exact hfront p ((List.mem_inits p v).mpr hp) hne
    · exact hback q ((List.mem_inits q m).mpr hqm) hne hqv

instance (v m : List Char) : Decidable (Apart v m) :=
  decidable_of_iff _ (apart_iff_inits v m).symm

example : Apart "s3cret".toList "[REDACTED]".toList := by decide

example : ¬ Apart "top[RED".toList "[REDACTED]".toList := by decide

/-! ### Words where a mark stands -/

section
variable {v w m s : List Char}

theorem Apart.not_prefix_append {p : List Char} (h : Apart v m) (hp : p ≠ []) (hpm : p <:+ m)
    (y : List Char) : ¬ v <+: p ++ y := by
  intro hv
  rcases List.prefix_or_prefix_of_prefix hv (List.prefix_append p y) with hvp | hpv
  · exact h.not_inside (hvp.isInfix.trans hpm.isInfix)
  · exact h.front p hp hpv hpm

theorem Apart.not_back {p q y : List Char} (h : Apart v m) (hq : q ≠ []) (hv : v = p ++ q) :
    ¬ q <+: m ++ y := by
  intro hy
  have hqv : q <:+ v := ⟨p, hv.symm⟩
  rcases List.prefix_or_prefix_of_prefix hy (List.prefix_append m y) with hqm | hmq
  · exact h.back q hq hqv hqm
  · exact h.not_around (hmq.isInfix.trans hqv.isInfix)

theorem Apart.prefix_of_prefix_append {x y : List Char} (h : Apart v m)
    (hv : v <+: x ++ (m ++ y)) : v <+: x := by
  rcases List.prefix_or_prefix_of_prefix hv (List.prefix_append x (m ++ y)) with hvx | ⟨q, hq⟩
  · exact hvx
  · rw [← hq, List.prefix_append_right_inj] at hv
    by_cases hnil : q = []
    · rw [← hq, hnil, List.append_nil]
    · exact absurd hv (h.not_back hnil hq.symm)

theorem Apart.not_infix_append {y : List Char} (h : Apart v m) (hy : ¬ v <:+: y) :
    ¬ v <:+: m ++ y := by
  rw [List.infix_append_iff_ne_nil]
  rintro (hm | hv | ⟨p, q, hp, -, hv, hpm, -⟩)
  · exact h.not_inside hm
  · exact hy hv
  · exact h.front p hp ⟨q, hv.symm⟩ hpm

/-! ### Words that are not in a replaced text -/

/-- Replacing a word starts no other one where none started. -/
theorem Apart.not_prefix_replaceChars (h : Apart w m) (hs : ¬ w <+: s) :
    ¬ w <+: replaceChars v m s := by
  by_cases hv : v = []
  · rw [hv, replaceChars_nil_word]
    exact hs
  by_cases hin : v <:+: s
  · obtain ⟨x, y, rfl, hreplaced⟩ := replaceChars_first hv hin m
    rw [hreplaced]
    intro hw
    exact hs ((h.prefix_of_prefix_append hw).trans (List.prefix_append x _))
  · rw [replaceChars_eq_self hin]
    exact hs

theorem Apart.not_infix_replaceChars_self (h : Apart v m) (s : List Char) :
    ¬ v <:+: replaceChars v m s := by
  induction s using replace_induction h.ne_nil with
  | nil =>
    rw [replaceChars_nil, List.infix_nil]
    exact h.ne_nil
  | found s ih =>
    rw [replaceChars_found h.ne_nil]
    exact h.not_infix_append ih
  | kept c s hc ih =>
    -- the word does not start here, since it did not before
    have hfront : ¬ v <+: replaceChars v m (c :: s) := h.not_prefix_replaceChars hc
    rw [replaceChars_kept hc] at hfront ⊢
    exact fun hin => (List.infix_cons_iff.mp hin).elim hfront ih

theorem Apart.not_infix_replaceChars (h : Apart v m) (hs : ¬ v <:+: s) :
    ¬ v <:+: replaceChars w m s := by
  by_cases hw : w = []
  · rw [hw, replaceChars_nil_word]
    exact hs
  induction s using replace_induction hw with
  | nil =>
    rw [replaceChars_nil]
    exact hs
  | found s ih =>
    have hrest : ¬ v <:+: s := fun hin => hs (hin.trans (List.suffix_append w s).isInfix)
    rw [replaceChars_found hw]
    exact h.not_infix_append (ih hrest)
  | kept c s hc ih =>
    have hrest : ¬ v <:+: s := fun hin => hs (List.infix_cons hin)
    have hfront : ¬ v <+: replaceChars w m (c :: s) :=
      h.not_prefix_replaceChars fun hv => hs hv.isInfix
    rw [replaceChars_kept hc] at hfront ⊢
    exact fun hin => (List.infix_cons_iff.mp hin).elim hfront (ih hrest)

end

end PipelineRunner.Text
