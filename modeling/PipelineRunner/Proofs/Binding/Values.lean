import PipelineRunner.Proofs.Binding.References
import PipelineRunner.Proofs.Redaction.Wording

/-!
# What names resolve to

A name in a template of a step stands for the step's entry of that name, filled from the context, or
else for its value in the context. So a filled text has a character only if the template, an entry
or a value that the context has for one of the names behind it has it.
-/

namespace PipelineRunner

open Template (slots)
open Text (Lacks)

/-- The names of the context that the value of a name in a step's templates is made from. -/
def Step.sources (step : Step) (n : String) : List String :=
  match step.env.get? n with
  | some entry => slots entry
  | none => [n]

namespace Binding

variable {context : Context} {env r : Dict String} {step : Step} {c : Char} {n t u v : String}

/-! ### Filled templates -/

theorem render_of_fill {value? : Lookup} (h : fill value? t = .ok u) :
    Template.render t value? = .ok u := by
  unfold fill at h
  cases hr : Template.render t value? with
  | error name =>
    rw [hr] at h
    cases h
  | ok s =>
    rw [hr] at h
    cases h
    rfl

theorem fill_lacks {value? : Lookup} (h : fill value? t = .ok u) (ht : Lacks c t)
    (hvalues : ∀ n ∈ slots t, ∀ v, value? n = some v → Lacks c v) : Lacks c u := by
  intro hc
  rcases Template.mem_render (render_of_fill h) hc with hc | ⟨n, hn, v, hv, hc⟩
  · exact ht hc
  · exact hvalues n hn v hv hc

/-! ### The values of the environment -/

theorem bindEntries_get? {es : List (String × String)} (h : bindEntries context env es = .ok r)
    (hv : r.get? n = some v) :
    (∃ entry, (n, entry) ∈ es ∧ fill context.lookup entry = .ok v) ∨ env.get? n = some v := by
  induction es generalizing env with
  | nil =>
    cases h
    exact Or.inr hv
  | cons e rest ih =>
    obtain ⟨value, hvalue, h⟩ := exists_of_bind_eq_ok h
    rcases ih h with ⟨entry, hentry, hfill⟩ | hv
    · exact Or.inl ⟨entry, List.mem_cons_of_mem e hentry, hfill⟩
    · rw [Dict.get?_insert] at hv
      split at hv
      · rename_i hn
        rw [← Option.some.inj hv, hn]
        exact Or.inl ⟨e.2, List.mem_cons_self, hvalue⟩
      · exact Or.inr hv

theorem bindRequired_get? {keys : List String} (h : bindRequired context env keys = .ok r)
    (hv : r.get? n = some v) :
    env.get? n = some v ∨ env.contains n = false ∧ context.lookup n = some v := by
  induction keys generalizing env with
  | nil =>
    cases h
    exact Or.inl hv
  | cons key rest ih =>
    unfold bindRequired at h
    split at h
    · exact ih h
    · rename_i hkey
      split at h
      · cases h
      · rename_i value hvalue
        rcases ih h with hv | ⟨hn, hv⟩
        · rw [Dict.get?_insert] at hv
          split at hv
          · rename_i hn
            rw [hn, ← Option.some.inj hv]
            exact Or.inr ⟨Bool.eq_false_iff.mpr hkey, hvalue⟩
          · exact Or.inl hv
        · rw [Dict.contains_insert, Bool.or_eq_false_iff] at hn
          exact Or.inr ⟨hn.2, hv⟩

theorem lookupIn_eq_some (henv : bindEnv step context = .ok env)
    (h : lookupIn env context n = some v) :
    (∃ entry, step.env.get? n = some entry ∧ fill context.lookup entry = .ok v) ∨
      step.env.get? n = none ∧ context.lookup n = some v := by
  obtain ⟨entries, hentries, hrequired⟩ := exists_of_bind_eq_ok henv
  have hown := bindEntries_eq_contains hentries n
  have hcontext : step.env.contains n = false → context.lookup n = some v →
      step.env.get? n = none ∧ context.lookup n = some v := by
    intro hn hv
    have hnone := Option.isSome_eq_false_iff.mp hn
    exact ⟨Option.isNone_iff_eq_none.mp hnone, hv⟩
  unfold lookupIn at h
  rcases Option.or_eq_some_iff.mp h with hv | ⟨hn, hv⟩
  · rcases bindRequired_get? hrequired hv with hv | ⟨hn, hv⟩
    · rcases bindEntries_get? hentries hv with ⟨entry, hentry, hfill⟩ | hv
      · exact Or.inl ⟨entry, Dict.mem_entries_iff.mp hentry, hfill⟩
      · cases hv
    · exact Or.inr (hcontext (hown ▸ hn) hv)
  · have hcontains := bindEnv_contains henv n
    rw [Dict.contains, hn, Option.isSome_none, eq_comm, Bool.or_eq_false_iff] at hcontains
    exact Or.inr (hcontext hcontains.1 hv)

theorem lookupIn_lacks (henv : bindEnv step context = .ok env)
    (hentries : ∀ entry ∈ step.env.values, Lacks c entry)
    (hsources : ∀ m ∈ step.sources n, ∀ v, context.lookup m = some v → Lacks c v)
    (h : lookupIn env context n = some v) : Lacks c v := by
  unfold Step.sources at hsources
  rcases lookupIn_eq_some henv h with ⟨entry, hentry, hfill⟩ | ⟨hentry, hv⟩
  · rw [hentry] at hsources
    exact fill_lacks hfill (hentries entry (Dict.mem_values_iff.mpr ⟨n, hentry⟩)) hsources
  · rw [hentry] at hsources
    exact hsources n List.mem_cons_self v hv

end Binding

/-! ### The texts of a step that a run reports -/

/-- The texts of a bound step that can be reported: its program if it cannot be started, and its
artifact. -/
def BoundStep.reportedTexts (b : BoundStep) : List String :=
  b.command.program :: b.publish.toList.flatMap fun a => [a.file, a.key]

/-- The templates that they are filled from. In a container the program is the runtime. -/
def Step.reportedTemplates (step : Step) : List String :=
  (match step.container with | none => step.command.take 1 | some _ => []) ++
    step.publishes.toList.flatMap fun a => [a.file, a.key]

def Step.reportedSources (step : Step) : List String :=
  (step.reportedTemplates.flatMap slots).flatMap step.sources

def Step.texts (step : Step) : List String :=
  step.requiredEnv ++ step.templates ++ step.container.toList.map (·.runtime)

theorem Step.reportedTemplates_subset (step : Step) : step.reportedTemplates ⊆ step.templates := by
  intro t ht
  rw [Step.mem_templates, Step.bodyTemplates]
  simp only [List.mem_append]
  rcases List.mem_append.mp ht with ht | ht
  · cases hcontainer : step.container with
    | none =>
      rw [hcontainer] at ht
      exact Or.inr (Or.inl (Or.inl (Or.inl (List.mem_of_mem_take ht))))
    | some container =>
      rw [hcontainer] at ht
      cases ht
  · exact Or.inr (Or.inl (Or.inr ht))

namespace Binding

variable {context : Context} {env : Dict String} {step : Step} {b : BoundStep} {c : Char}
  {t : String}

theorem fillAll_headD {value? : Lookup} {ts us : List String} (h : fillAll value? ts = .ok us) :
    us.headD "" = "" ∨ ∃ t ∈ ts.take 1, fill value? t = .ok (us.headD "") := by
  cases ts with
  | nil =>
    cases h
    exact Or.inl rfl
  | cons t rest =>
    obtain ⟨u, hu, h⟩ := exists_of_bind_eq_ok h
    obtain ⟨others, -, h⟩ := exists_of_bind_eq_ok h
    cases h
    exact Or.inr ⟨t, List.mem_cons_self, hu⟩

theorem bindArtifact_filled {value? : Lookup} {a r : Option Artifact}
    (h : bindArtifact value? a = .ok r) (ht : t ∈ r.toList.flatMap fun a => [a.file, a.key]) :
    ∃ u ∈ a.toList.flatMap fun a => [a.file, a.key], fill value? u = .ok t := by
  cases a with
  | none =>
    cases h
    cases ht
  | some a =>
    obtain ⟨file, key, hfile, hkey, rfl⟩ := bindArtifact_some h
    simp only [Option.toList_some, List.flatMap_singleton, List.mem_cons, List.not_mem_nil,
      or_false] at ht
    rcases ht with rfl | rfl
    · exact ⟨a.file, by simp, hfile⟩
    · exact ⟨a.key, by simp, hkey⟩

theorem bind_reportedTexts (h : bind step context = .ok b) (ht : t ∈ b.reportedTexts) :
    t = "" ∨ t ∈ step.container.toList.map (·.runtime) ∨
      ∃ env, bindEnv step context = .ok env ∧
        ∃ u ∈ step.reportedTemplates, fill (lookupIn env context) u = .ok t := by
  obtain ⟨env, command, henv, hcommand, -, hpublish, hprogram, -⟩ := bind_eq_ok h
  rcases List.mem_cons.mp ht with rfl | ht
  · unfold Step.reportedTemplates
    cases hcontainer : step.container with
    | none =>
      rw [hcontainer] at hprogram
      have hhead : command.headD "" = b.command.program :=
        congrArg Prod.fst (Except.ok.inj hprogram)
      rcases fillAll_headD hcommand with hempty | ⟨u, hu, hfill⟩
      · exact Or.inl (hhead ▸ hempty)
      · exact Or.inr (Or.inr ⟨env, henv, u, List.mem_append_left _ hu, hhead ▸ hfill⟩)
    | some container =>
      rw [hcontainer] at hprogram
      obtain ⟨args, -, hpair⟩ := exists_of_map_eq_ok hprogram
      rw [Prod.mk.injEq] at hpair
      exact Or.inr (Or.inl (List.mem_singleton.mpr hpair.1.symm))
  · obtain ⟨u, hu, hfill⟩ := bindArtifact_filled hpublish ht
    exact Or.inr (Or.inr ⟨env, henv, u, List.mem_append_right _ hu, hfill⟩)

/-- A character that a step's own texts lack is in a reported text only if the context has it in a
value that the text is made from. -/
theorem bind_reportedTexts_lack (h : bind step context = .ok b)
    (hstep : ∀ t ∈ step.texts, Lacks c t)
    (hsources : ∀ m ∈ step.reportedSources, ∀ v, context.lookup m = some v → Lacks c v) :
    ∀ t ∈ b.reportedTexts, Lacks c t := by
  intro t ht
  have htemplate : ∀ u ∈ step.templates, Lacks c u := fun u hu =>
    hstep u (List.mem_append_left _ (List.mem_append_right _ hu))
  rcases bind_reportedTexts h ht with rfl | hruntime | ⟨env, henv, u, hu, hfill⟩
  · exact Text.lacks_empty
  · exact hstep t (List.mem_append_right _ hruntime)
  · apply fill_lacks hfill (htemplate u (step.reportedTemplates_subset hu))
    intro n hn v hv
    refine lookupIn_lacks henv (fun entry hentry => ?_) (fun m hm => ?_) hv
    · exact htemplate entry ((step.mem_templates entry).mpr (Or.inl hentry))
    · exact hsources m (List.mem_flatMap.mpr ⟨n, List.mem_flatMap.mpr ⟨u, hu, hn⟩, hm⟩)

/-- A name that a step misses is one of its own texts or a part of one, and lacks what they lack. -/
theorem missing_lacks {key : String} (h : bind step context = .error (.missingVariable key))
    (hstep : ∀ t ∈ step.texts, Lacks c t) : Lacks c key := by
  have htemplate : ∀ u ∈ step.templates, Lacks c u := fun u hu =>
    hstep u (List.mem_append_left _ (List.mem_append_right _ hu))
  have hslot : ∀ u ∈ step.templates, key ∈ slots u → Lacks c key := fun u hu hkey hc =>
    htemplate u hu (Template.mem_of_mem_slot hkey hc)
  rcases Step.mem_foldl_addName.mp (mem_referencedNames_of_missing h) with hkey | hkey
  · exact hstep key (List.mem_append_left _ (List.mem_append_left _ hkey))
  · obtain ⟨u, hu, hkey⟩ := List.mem_flatMap.mp hkey
    exact hslot u hu hkey

end Binding

end PipelineRunner
