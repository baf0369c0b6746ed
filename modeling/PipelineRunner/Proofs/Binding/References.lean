import PipelineRunner.Proofs.Binding.Outcome

/-!
# The names a step refers to

`Step.referencedNames` collects the required names and those of all slots, in an order of its own.
They are the names that binding the step can ask for, and so the only ones that it can miss.
-/

namespace PipelineRunner

open Template (slots)

namespace Step

theorem mem_addName {names : List String} {a n : String} :
    n ∈ addName names a ↔ n ∈ names ∨ n = a := by
  unfold addName
  split
  · rename_i ha
    have ha : a ∈ names := List.contains_iff_mem.mp ha
    constructor
    · exact Or.inl
    · rintro (hn | rfl)
      · exact hn
      · exact ha
  · rw [List.mem_append, List.mem_singleton]

theorem mem_foldl_addName {l names : List String} {n : String} :
    n ∈ l.foldl addName names ↔ n ∈ names ∨ n ∈ l := by
  induction l generalizing names with
  | nil => simp
  | cons a rest ih => rw [List.foldl_cons, ih, mem_addName, List.mem_cons, or_assoc]

theorem mem_container_templates (c : Container) (t : String) :
    t ∈ c.templates ↔ t ∈ c.fillOrder := by
  simp only [Container.templates, Container.fillOrder, List.mem_append, List.mem_cons,
    List.not_mem_nil, or_false, List.cons_append]
  grind

theorem mem_templates (s : Step) (t : String) :
    t ∈ s.templates ↔ t ∈ s.env.values ∨ t ∈ s.bodyTemplates := by
  simp only [templates, bodyTemplates, List.mem_append]
  cases s.container <;> cases s.publishes <;>
    simp only [Option.toList_none, Option.toList_some, List.flatMap_nil, List.flatMap_cons,
      List.append_nil, List.not_mem_nil, mem_container_templates] <;> grind

theorem mem_referencedNames (s : Step) (n : String) :
    n ∈ s.referencedNames ↔
      n ∈ s.env.values.flatMap slots ∨ n ∈ s.requiredEnv ++ s.bodyTemplates.flatMap slots := by
  rw [referencedNames, mem_foldl_addName]
  simp only [List.mem_append, List.mem_flatMap, mem_templates, or_and_right, exists_or]
  grind

end Step

namespace Binding

theorem mem_referencedNames_of_missing {step : Step} {context : Context} {key : String}
    (h : bind step context = .error (.missingVariable key)) : key ∈ step.referencedNames := by
  rw [Step.mem_referencedNames]
  have hmissing := ((bind_misses step context).eq_some_iff key).mpr h
  rcases Option.or_eq_some_iff.mp hmissing with hkey | ⟨-, hkey⟩
  · exact Or.inl (mem_of_firstLacking hkey)
  · exact Or.inr (mem_of_firstLacking hkey)

variable {step : Step} {c d : Context}

theorem missing?_congr (h : ∀ n ∈ step.referencedNames, c.contains n = d.contains n) :
    missing? step c = missing? step d := by
  have hentries : ∀ n ∈ step.env.values.flatMap slots,
      (c.lookup n).isNone = (d.lookup n).isNone := by
    intro n hn
    rw [lookup_isNone, lookup_isNone, h n ((step.mem_referencedNames n).mpr (Or.inl hn))]
  have hothers : ∀ n ∈ step.requiredEnv ++ step.bodyTemplates.flatMap slots,
      (lookupIn step.env c n).isNone = (lookupIn step.env d n).isNone := by
    intro n hn
    rw [lookupIn_isNone, lookupIn_isNone, h n ((step.mem_referencedNames n).mpr (Or.inr hn))]
  rw [missing?, missing?, firstLacking_congr hentries, firstLacking_congr hothers]

/-- Contexts that bind the same of the names a step refers to miss the same one or both bind it. -/
theorem bind_alike (h : ∀ n ∈ step.referencedNames, c.contains n = d.contains n) :
    (∃ key, bind step c = .error (.missingVariable key) ∧
      bind step d = .error (.missingVariable key)) ∨
      ∃ a b, bind step c = .ok a ∧ bind step d = .ok b := by
  have hc := bind_misses step c
  have hd := bind_misses step d
  rw [← missing?_congr h] at hd
  cases hm : missing? step c with
  | some key => exact Or.inl ⟨key, (hc.eq_some_iff key).mp hm, (hd.eq_some_iff key).mp hm⟩
  | none =>
    obtain ⟨a, ha⟩ := hc.eq_none_iff.mp hm
    obtain ⟨b, hb⟩ := hd.eq_none_iff.mp hm
    exact Or.inr ⟨a, b, ha, hb⟩

end Binding

end PipelineRunner
