import PipelineRunner.Proofs.Binding.References
import PipelineRunner.Proofs.Run.Rehearsal

/-!
# What the list of unresolved names promises

A step asks for the names it refers to: those in the templates of its environment entries from the
context alone, all others from its entries too. `unresolvedNames` lets a name pass that an entry of
the step has, wherever the step refers to it. So a pipeline without unresolved names is sure to bind
exactly if no entry refers to a name that only an entry of the same step has.
-/

namespace PipelineRunner

open Template (slots)

/-! ### Unresolved names -/

namespace Pipeline

def captures (steps : List Step) : List String := steps.filterMap (·.capture)

/-- The names that the pipeline, the event and the steps before an index provide. -/
def namesBefore (p : Pipeline) (i : Nat) : List String :=
  p.providedNames ++ captures (p.steps.take i)

/-- The entries of a step refer only to names that are provided before the step. -/
def EntriesResolved (p : Pipeline) : Prop :=
  ∀ i step, p.steps[i]? = some step → ∀ n ∈ step.env.values.flatMap slots, n ∈ p.namesBefore i

theorem mem_addUnresolved {known found : List String} {step : Step} {n : String} :
    n ∈ addUnresolved known step found ↔
      n ∈ found ∨ n ∈ step.referencedNames ∧ n ∉ known ∧ step.env.contains n = false := by
  unfold addUnresolved
  induction step.referencedNames generalizing found with
  | nil => simp
  | cons m rest ih =>
    rw [List.foldl_cons, ih]
    by_cases hm : (known.contains m || step.env.contains m) = true
    · rw [if_pos hm]
      simp only [Bool.or_eq_true, List.contains_iff_mem] at hm
      grind
    · rw [if_neg hm, Step.mem_addName]
      simp only [Bool.or_eq_true, List.contains_iff_mem] at hm
      grind

theorem mem_unresolvedFrom {known found : List String} {steps : List Step} {n : String} :
    n ∈ unresolvedFrom known found steps ↔
      n ∈ found ∨ ∃ i step, steps[i]? = some step ∧ n ∈ step.referencedNames ∧
        n ∉ known ++ captures (steps.take i) ∧ step.env.contains n = false := by
  induction steps generalizing known found with
  | nil => simp [unresolvedFrom]
  | cons s rest ih =>
    -- what `s` captures counts as known for the rest, and as captured for the whole list
    have hprovided : ∀ i, n ∈ known ++ captures ((s :: rest).take (i + 1)) ↔
        n ∈ s.capture.toList ++ known ++ captures (rest.take i) := by
      intro i
      cases hc : s.capture with
      | none => simp [captures, hc]
      | some name => simp [captures, hc, or_left_comm]
    have hfirst : n ∈ known ++ captures ((s :: rest).take 0) ↔ n ∈ known := by simp [captures]
    rw [unresolvedFrom, ih, mem_addUnresolved, or_assoc]
    apply or_congr_right
    constructor
    · rintro (⟨hn, hknown, henv⟩ | ⟨i, step, hstep, hn, hknown, henv⟩)
      · exact ⟨0, s, rfl, hn, mt hfirst.mp hknown, henv⟩
      · exact ⟨i + 1, step, hstep, hn, mt (hprovided i).mp hknown, henv⟩
    · rintro ⟨i, step, hstep, hn, hknown, henv⟩
      cases i with
      | zero =>
        cases hstep
        exact Or.inl ⟨hn, mt hfirst.mpr hknown, henv⟩
      | succ i => exact Or.inr ⟨i, step, hstep, hn, mt (hprovided i).mpr hknown, henv⟩

theorem mem_unresolvedNames {p : Pipeline} {n : String} :
    n ∈ p.unresolvedNames ↔ ∃ i step, p.steps[i]? = some step ∧ n ∈ step.referencedNames ∧
      n ∉ p.namesBefore i ∧ step.env.contains n = false := by
  rw [unresolvedNames, mem_unresolvedFrom]
  simp only [namesBefore, List.not_mem_nil, false_or]

theorem unresolvedNames_eq_nil_iff {p : Pipeline} :
    p.unresolvedNames = [] ↔ ∀ i step, p.steps[i]? = some step → ∀ n ∈ step.referencedNames,
      n ∈ p.namesBefore i ∨ step.env.contains n = true := by
  rw [List.eq_nil_iff_forall_not_mem]
  simp only [mem_unresolvedNames, not_exists, not_and, Bool.not_eq_false]
  grind

end Pipeline

/-! ### The names in a plan's contexts -/

namespace Context

def Provides (c : Context) (p : Pipeline) : Prop :=
  ∀ n ∈ p.providedNames, c.contains n = true

instance (c : Context) (p : Pipeline) : Decidable (c.Provides p) :=
  inferInstanceAs (Decidable (∀ n ∈ p.providedNames, c.contains n = true))

def ofNames (names : List String) : Context :=
  names.foldl (fun c n => c.setVariable n "") empty

theorem contains_foldl_setVariable (names : List String) (c : Context) (n : String) :
    (names.foldl (fun c n => c.setVariable n "") c).contains n = true ↔
      n ∈ names ∨ c.contains n = true := by
  induction names generalizing c with
  | nil => simp
  | cons m rest ih =>
    rw [List.foldl_cons, ih, contains_setVariable, Bool.or_eq_true, beq_iff_eq, List.mem_cons]
    grind

theorem ofNames_contains (names : List String) (n : String) :
    (ofNames names).contains n = true ↔ n ∈ names := by
  rw [ofNames, contains_foldl_setVariable]
  simp [empty, contains]

end Context

namespace Binding

theorem planContext_contains (context : Context) (steps : List Step) (i : Nat) (n : String) :
    (planContext context steps i).contains n = true ↔
      context.contains n = true ∨ n ∈ Pipeline.captures (steps.take i) := by
  unfold planContext
  induction steps.take i generalizing context with
  | nil => simp [Pipeline.captures]
  | cons step rest ih =>
    rw [List.foldl_cons, ih, markCapture]
    simp only [Pipeline.captures, List.filterMap_cons]
    cases step.capture with
    | none => exact Iff.rfl
    | some name =>
      simp only [Context.withOutput, Context.contains_setVariable, Bool.or_eq_true, beq_iff_eq,
        List.mem_cons]
      grind

theorem plan_all_ok_iff {p : Pipeline} {context : Context} :
    (∀ q ∈ plan p context, q.bound.isOk = true) ↔
      ∀ i step, p.steps[i]? = some step →
        ∃ b, bind step (planContext context p.steps i) = .ok b := by
  constructor
  · intro h i step hstep
    have hq := plan_getElem? p context i
    rw [hstep, Option.map_some] at hq
    have hok : (bind step (planContext context p.steps i)).isOk = true :=
      h _ (List.mem_of_getElem? hq)
    cases hb : bind step (planContext context p.steps i) with
    | error e =>
      rw [hb] at hok
      cases hok
    | ok b => exact ⟨b, rfl⟩
  · intro h q hq
    obtain ⟨i, hi⟩ := List.mem_iff_getElem?.mp hq
    rw [plan_getElem?] at hi
    obtain ⟨step, hstep, rfl⟩ := Option.map_eq_some_iff.mp hi
    obtain ⟨b, hb⟩ := h i step hstep
    show (bind step (planContext context p.steps i)).isOk = true
    rw [hb]
    rfl

end Binding

/-! ### The promise -/

/-- If nothing is unresolved, entries included, every step of a plan can be bound. -/
theorem plan_all_ok_of_resolved {p : Pipeline} {context : Context}
    (hnames : p.unresolvedNames = []) (hentries : p.EntriesResolved)
    (hprovides : context.Provides p) : ∀ q ∈ Binding.plan p context, q.bound.isOk = true := by
  rw [Binding.plan_all_ok_iff]
  intro i step hstep
  have hbefore : ∀ n ∈ p.namesBefore i,
      (Binding.planContext context p.steps i).contains n = true := by
    intro n hn
    rw [Binding.planContext_contains]
    rcases List.mem_append.mp hn with hn | hn
    · exact Or.inl (hprovides n hn)
    · exact Or.inr hn
  rw [Binding.exists_bind_iff]
  constructor
  · intro n hn
    exact hbefore n (hentries i step hstep n hn)
  · intro n hn
    have hreferenced : n ∈ step.referencedNames := (step.mem_referencedNames n).mpr (Or.inr hn)
    rcases Pipeline.unresolvedNames_eq_nil_iff.mp hnames i step hstep n hreferenced with h | h
    · exact Or.inr (hbefore n h)
    · exact Or.inl h

/-- If every step can be bound from the provided names alone, nothing is unresolved. -/
theorem resolved_of_plan_all_ok {p : Pipeline}
    (h : ∀ q ∈ Binding.plan p (.ofNames p.providedNames), q.bound.isOk = true) :
    p.unresolvedNames = [] ∧ p.EntriesResolved := by
  rw [Binding.plan_all_ok_iff] at h
  have hbefore : ∀ i n, (Binding.planContext (.ofNames p.providedNames) p.steps i).contains n =
      true ↔ n ∈ p.namesBefore i := by
    intro i n
    rw [Binding.planContext_contains, Context.ofNames_contains, Pipeline.namesBefore,
      List.mem_append]
  have hentries : p.EntriesResolved := by
    intro i step hstep n hn
    exact (hbefore i n).mp ((Binding.exists_bind_iff.mp (h i step hstep)).1 n hn)
  refine ⟨Pipeline.unresolvedNames_eq_nil_iff.mpr fun i step hstep n hn => ?_, hentries⟩
  rcases (step.mem_referencedNames n).mp hn with hn | hn
  · exact Or.inl (hentries i step hstep n hn)
  · rcases (Binding.exists_bind_iff.mp (h i step hstep)).2 n hn with hn | hn
    · exact Or.inr hn
    · exact Or.inl ((hbefore i n).mp hn)

/-- Every context with the provided names lets every step of the plan be bound, and so lets no run
miss a variable, exactly if nothing is unresolved and no entry refers to a name that is provided
only by an entry of its step. -/
theorem plan_binds_iff_resolved (p : Pipeline) :
    (∀ context : Context, context.Provides p →
      (∀ q ∈ Binding.plan p context, q.bound.isOk = true) ∧
      ∀ invoke clock id f, (execute invoke clock id p context).outcome.failure = some f →
        ∀ key, f.error ≠ .missingVariable key) ↔
      p.unresolvedNames = [] ∧ p.EntriesResolved := by
  constructor
  · intro h
    -- the context with no other names than the provided ones decides what the entries may use
    have hprovides : (Context.ofNames p.providedNames).Provides p := by
      intro n hn
      exact (Context.ofNames_contains _ n).mpr hn
    exact resolved_of_plan_all_ok (h _ hprovides).1
  · rintro ⟨hnames, hentries⟩ context hprovides
    have hplan := plan_all_ok_of_resolved hnames hentries hprovides
    exact ⟨hplan, fun invoke clock id f hf key => execute_misses_nothing hplan hf key⟩

/-- A pipeline with an entry that refers to another entry of its step. -/
def regionPipeline : Pipeline :=
  { name := "deploy"
    trigger := none
    declared := Dict.empty
    secrets := []
    steps :=
      [{ Step.ofCommand "deploy" ["deploy"] with
          env := Dict.ofList
            [("REGION", "eu"), ("URL", "https://\x7b\x7b REGION \x7d\x7d.example.org")] }] }

/-- Nothing of it is unresolved, the context has every provided name, and yet the step misses a
variable. -/
theorem region_unbound_though_resolved :
    regionPipeline.unresolvedNames = [] ∧
      (Context.empty.withEvent ⟨some "devel"⟩).Provides regionPipeline ∧
      ∃ q, (Binding.plan regionPipeline (Context.empty.withEvent ⟨some "devel"⟩))[0]? = some q ∧
        q.bound = .error (.missingVariable "REGION") := by
  exact ⟨by decide +kernel, by decide +kernel, _, rfl, rfl⟩

end PipelineRunner
