import PipelineRunner.Proofs.Pipeline.Layers
import PipelineRunner.Proofs.Pipeline.Unresolved

/-!
# Names that nothing provides

The list of unresolved names has, each once, the names that a step refers to and no declaration,
event, entry of the step or earlier capture provides. Without overrides no such name is bound when
its step is reached, so the step cannot be bound (`unresolvedNames_exact`).
-/

namespace PipelineRunner

namespace Step

theorem nodup_addName {names : List String} (h : names.Nodup) (n : String) :
    (addName names n).Nodup := by
  unfold addName
  split
  · exact h
  · rename_i hn
    rw [List.contains_iff_mem] at hn
    rw [List.nodup_append]
    refine ⟨h, List.pairwise_singleton _ n, ?_⟩
    intro m hm k hk heq
    rw [List.mem_singleton.mp hk] at heq
    exact hn (heq ▸ hm)

end Step

namespace Pipeline

variable {p : Pipeline} {n : String}

/-! ### The list -/

/-- The step at an index refers to a name that is no declared variable or secret, no part of the
event, no entry of the step and no output captured by an earlier step. -/
def Unprovided (p : Pipeline) (i : Nat) (n : String) : Prop :=
  ∃ step, p.steps[i]? = some step ∧ n ∈ step.referencedNames ∧
    p.declared.contains n = false ∧ n ∉ p.secrets ∧ n ≠ "branch" ∧ n ≠ "branch_slug" ∧
    step.env.contains n = false ∧
    ∀ j < i, ∀ earlier, p.steps[j]? = some earlier → earlier.capture ≠ some n

theorem nodup_addUnresolved {known found : List String} {step : Step} (h : found.Nodup) :
    (addUnresolved known step found).Nodup := by
  unfold addUnresolved
  induction step.referencedNames generalizing found with
  | nil => exact h
  | cons m rest ih =>
    rw [List.foldl_cons]
    split
    · exact ih h
    · exact ih (Step.nodup_addName h m)

theorem nodup_unresolvedFrom {known found : List String} {steps : List Step} (h : found.Nodup) :
    (unresolvedFrom known found steps).Nodup := by
  induction steps generalizing known found with
  | nil => exact h
  | cons s rest ih => exact ih (nodup_addUnresolved h)

theorem not_mem_captures_take {steps : List Step} {i : Nat} :
    n ∉ captures (steps.take i) ↔
      ∀ j < i, ∀ earlier, steps[j]? = some earlier → earlier.capture ≠ some n := by
  rw [captures, List.mem_filterMap]
  constructor
  · intro h j hlt earlier hj hcapture
    refine h ⟨earlier, List.mem_iff_getElem?.mpr ⟨j, ?_⟩, hcapture⟩
    rw [List.getElem?_take, if_pos hlt, hj]
  · rintro h ⟨earlier, hearlier, hcapture⟩
    obtain ⟨j, hj⟩ := List.mem_iff_getElem?.mp hearlier
    rw [List.getElem?_take] at hj
    split at hj
    · rename_i hlt
      exact h j hlt earlier hj hcapture
    · cases hj

theorem not_mem_providedNames :
    n ∉ p.providedNames ↔
      p.declared.contains n = false ∧ n ∉ p.secrets ∧ n ≠ "branch" ∧ n ≠ "branch_slug" := by
  simp only [providedNames, List.mem_append, Dict.mem_keys_iff, List.mem_cons, List.not_mem_nil,
    or_false, not_or, Bool.not_eq_true, and_assoc]

theorem unprovided_iff {i : Nat} :
    p.Unprovided i n ↔ ∃ step, p.steps[i]? = some step ∧ n ∈ step.referencedNames ∧
      n ∉ p.namesBefore i ∧ step.env.contains n = false := by
  have hbefore : n ∉ p.namesBefore i ↔ n ∉ p.providedNames ∧ n ∉ captures (p.steps.take i) := by
    rw [namesBefore, List.mem_append, not_or]
  constructor
  · rintro ⟨step, hstep, hn, hdeclared, hsecret, hbranch, hslug, henv, hcaptures⟩
    have hprovided := not_mem_providedNames.mpr ⟨hdeclared, hsecret, hbranch, hslug⟩
    exact ⟨step, hstep, hn, hbefore.mpr ⟨hprovided, not_mem_captures_take.mpr hcaptures⟩, henv⟩
  · rintro ⟨step, hstep, hn, hnone, henv⟩
    obtain ⟨hprovided, hcaptures⟩ := hbefore.mp hnone
    obtain ⟨hdeclared, hsecret, hbranch, hslug⟩ := not_mem_providedNames.mp hprovided
    exact ⟨step, hstep, hn, hdeclared, hsecret, hbranch, hslug, henv,
      not_mem_captures_take.mp hcaptures⟩

/-! ### The start of a run -/

theorem startsAs?_eq_none {overrides : List (String × String)} (env : ProcessEnv)
    (event : TriggerEvent) (hoverride : n ∉ overrides.map (·.1)) (hn : n ∉ p.providedNames) :
    p.startsAs? env event overrides n = none := by
  obtain ⟨hdeclared, hsecret, hbranch, hslug⟩ := not_mem_providedNames.mp hn
  have hoverrideOf : overrideOf? overrides n = none := by
    rw [overrideOf?, Option.map_eq_none_iff, List.find?_eq_none]
    intro e he hkey
    rw [beq_iff_eq] at hkey
    exact hoverride (List.mem_map.mpr ⟨e, List.mem_reverse.mp he, hkey⟩)
  have hsecretOf : p.secretOf? env n = none := if_neg hsecret
  have heventOf : eventOf? event n = none := by
    unfold eventOf?
    cases event.branch with
    | none => rfl
    | some b => simp [hbranch, hslug]
  have hdeclaredOf : p.declaredOf? env n = none := by
    rw [Dict.contains, Option.isSome_eq_false_iff, Option.isNone_iff_eq_none] at hdeclared
    rw [declaredOf?, hdeclared]
  simp only [startsAs?, hoverrideOf, hsecretOf, heventOf, hdeclaredOf, Option.map_none]

theorem initialContext_contains_eq_false {overrides : List (String × String)} (env : ProcessEnv)
    (event : TriggerEvent) (hoverride : n ∉ overrides.map (·.1)) (hn : n ∉ p.providedNames) :
    (p.initialContext env event overrides).contains n = false := by
  have hfollows := Context.follows_ofWrites (p.initialWrites env event overrides)
  rw [initialContext_eq, Bool.eq_false_iff]
  intro hcontains
  obtain ⟨v, hv⟩ := (hfollows.contains_iff n).mp hcontains
  rw [hfollows.lookup_eq, lastWrite?_initialWrites, startsAs?_eq_none env event hoverride hn] at hv
  cases hv

end Pipeline

/-! ### The plan -/

namespace Binding

theorem exists_missing_of_unbound {step : Step} {context : Context} {n : String}
    (hn : n ∈ step.referencedNames) (hentry : step.env.contains n = false)
    (hcontext : context.contains n = false) :
    ∃ key, bind step context = .error (.missingVariable key) := by
  cases hb : bind step context with
  | error e =>
    obtain ⟨key, rfl⟩ := bind_missesOnly step context e hb
    exact ⟨key, rfl⟩
  | ok b =>
    obtain ⟨hentries, hothers⟩ := exists_bind_iff.mp ⟨b, hb⟩
    rcases (step.mem_referencedNames n).mp hn with hn | hn
    · rw [hentries n hn] at hcontext
      cases hcontext
    · rcases hothers n hn with h | h
      · rw [h] at hentry
        cases hentry
      · rw [h] at hcontext
        cases hcontext

end Binding

namespace Pipeline

theorem plan_misses_of_unprovided {p : Pipeline} {i : Nat} {n : String} (h : p.Unprovided i n)
    (env : ProcessEnv) (event : TriggerEvent) :
    ∃ q, (Binding.plan p (p.initialContext env event []))[i]? = some q ∧
      ∃ key, q.bound = .error (.missingVariable key) := by
  obtain ⟨step, hstep, hn, hnone, hentry⟩ := unprovided_iff.mp h
  -- a plan adds to the first context only the captures of the steps before
  rw [namesBefore, List.mem_append, not_or] at hnone
  have hcontext : (Binding.planContext (p.initialContext env event []) p.steps i).contains n =
      false := by
    rw [Bool.eq_false_iff, ne_eq, Binding.planContext_contains, not_or]
    refine ⟨?_, hnone.2⟩
    rw [initialContext_contains_eq_false env event List.not_mem_nil hnone.1]
    exact Bool.false_ne_true
  obtain ⟨key, hkey⟩ := Binding.exists_missing_of_unbound hn hentry hcontext
  exact ⟨_, by rw [Binding.plan_getElem?, hstep, Option.map_some], key, hkey⟩

/-- The unresolved names are, each once, those that are unprovided at some step; and without
overrides that step of the plan misses a variable, whatever the event and the environment. -/
theorem unresolvedNames_exact (p : Pipeline) :
    p.unresolvedNames.Nodup ∧
      (∀ n, n ∈ p.unresolvedNames ↔ ∃ i, p.Unprovided i n) ∧
      ∀ i n, p.Unprovided i n → ∀ env event,
        ∃ q, (Binding.plan p (p.initialContext env event []))[i]? = some q ∧
          ∃ key, q.bound = .error (.missingVariable key) := by
  refine ⟨nodup_unresolvedFrom List.nodup_nil, fun n => ?_, fun i n h env event => ?_⟩
  · rw [mem_unresolvedNames]
    exact exists_congr fun i => unprovided_iff.symm
  · exact plan_misses_of_unprovided h env event

/-- A pipeline whose first step refers to what the second one captures. -/
def releasePipeline : Pipeline :=
  { name := "release"
    trigger := none
    declared := Dict.ofList [("registry", .literal "registry.example.org")]
    secrets := ["REGISTRY_TOKEN"]
    steps :=
      [Step.ofCommand "build" ["docker", "build", "-t",
          "\x7b\x7b registry \x7d\x7d/dev:\x7b\x7b version \x7d\x7d", "."],
        { Step.ofCommand "version" ["sbt", "version"] with capture := some "version" },
        { Step.ofCommand "push" ["docker", "push",
              "\x7b\x7b registry \x7d\x7d/dev:\x7b\x7b version \x7d\x7d-\x7b\x7b branch_slug \x7d\x7d"] with
          env := Dict.ofList [("TOKEN", "\x7b\x7b REGISTRY_TOKEN \x7d\x7d")]
          requiredEnv := ["TOKEN", "AWS_DEFAULT_REGION"] }] }

theorem release_misses_version :
    releasePipeline.unresolvedNames = ["version", "AWS_DEFAULT_REGION"] ∧
      releasePipeline.Unprovided 0 "version" ∧
      ∃ q, (Binding.plan releasePipeline (releasePipeline.initialContext
          (Dict.ofList [("REGISTRY_TOKEN", "tok")]) ⟨some "devel"⟩ []))[0]? = some q ∧
        ∃ key, q.bound = .error (.missingVariable key) := by
  have hversion : releasePipeline.Unprovided 0 "version" :=
    ⟨_, rfl, by decide +kernel, by decide +kernel, by decide +kernel, by decide, by decide,
      by decide +kernel, fun j hj => absurd hj (Nat.not_lt_zero j)⟩
  obtain ⟨-, -, hmisses⟩ := unresolvedNames_exact releasePipeline
  exact ⟨by decide +kernel, hversion, hmisses 0 "version" hversion _ _⟩

end Pipeline

end PipelineRunner
