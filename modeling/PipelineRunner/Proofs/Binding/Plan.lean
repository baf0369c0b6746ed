import PipelineRunner.Proofs.Binding.Arguments

/-!
# Plans

A plan binds each step in a context of its own, in which the captures of the steps before are
marked (`plan_getElem?`). Contexts that have values for the same names bind a step alike
(`bind_agree`): both fail and miss the same name, or both succeed with commands of one shape.
-/

namespace PipelineRunner

/-! ### Contexts with the same names -/

namespace Context

/-- Two contexts have values for the same names, and the same names ever were secret in them. -/
structure SameNames (c d : Context) : Prop where
  contains : ∀ n, c.contains n = d.contains n
  secretNames : c.secretNames = d.secretNames

theorem SameNames.refl (c : Context) : c.SameNames c := ⟨fun _ => rfl, rfl⟩

@[simp] theorem contains_setVariable (c : Context) (key value n : String) :
    (c.setVariable key value).contains n = (n == key || c.contains n) := by
  unfold contains setVariable
  rw [Dict.contains_insert, Dict.contains_erase]
  by_cases hn : n = key
  · simp [hn]
  · rw [bne_iff_ne.mpr hn, beq_false_of_ne hn, Bool.true_and, Bool.false_or, Bool.false_or]

theorem SameNames.setVariable {c d : Context} (h : c.SameNames d) (key v w : String) :
    (c.setVariable key v).SameNames (d.setVariable key w) where
  contains n := by rw [contains_setVariable, contains_setVariable, h.contains]
  secretNames := h.secretNames

end Context

/-! ### Bound steps of one shape -/

/-- Two bound steps differ at most in the texts that were put into their templates. -/
structure BoundStep.SameShape (a b : BoundStep) : Prop where
  args_length : a.command.args.length = b.command.args.length
  env_keys : a.command.env.keys = b.command.env.keys
  withheldEnv : a.command.withheldEnv = b.command.withheldEnv
  timeoutSecs : a.command.timeoutSecs = b.command.timeoutSecs

/-- How many arguments a container's runtime is given, besides the command: `run` and `--rm`, two
for each mount, the working directory and each environment entry, and the image. -/
def Container.argCount (c : Container) (entries : Nat) : Nat :=
  2 + 2 * c.mounts.length + 2 * c.workdir.toList.length + 2 * entries + 1

def Step.argCount (s : Step) (entries : Nat) : Nat :=
  match s.container with
  | none => s.command.length - 1
  | some c => c.argCount entries + s.command.length

namespace Binding

section
variable {step : Step} {context c d : Context}

theorem flatMap_pair_length {α β : Type} (a : β) (f : α → β) (l : List α) :
    (l.flatMap fun x => [a, f x]).length = 2 * l.length := by
  induction l with
  | nil => rfl
  | cons x rest ih =>
    rw [List.flatMap_cons, List.length_append, ih]
    simp only [List.length_cons, List.length_nil]
    omega

theorem line_length (step : Step) :
    step.line.length = step.argCount step.envNames.keys.length + 1 := by
  unfold Step.line Step.argCount
  cases step.container with
  | none =>
    cases step.command with
    | nil => rfl
    | cons t rest => simp
  | some c =>
    simp only [List.length_append, List.length_cons, List.length_nil, List.length_map,
      flatMap_pair_length, Container.argCount]
    omega

theorem bind_args_length {b : BoundStep} (h : bind step context = .ok b) :
    b.command.args.length = step.argCount b.command.env.keys.length := by
  have hline := congrArg List.length (bind_line h)
  rw [List.length_cons, List.length_map, line_length] at hline
  rw [bind_env_keys h]
  omega

/-! ### Binding in contexts with the same names -/

/-- Outcomes that agree: both miss the same name, or both are bound steps of one shape. -/
inductive Agree : Except StepError BoundStep → Except StepError BoundStep → Prop
  | missing (key : String) :
    Agree (.error (.missingVariable key)) (.error (.missingVariable key))
  | bound {a b : BoundStep} : a.SameShape b → Agree (.ok a) (.ok b)

theorem Agree.error_left {e : StepError} {y : Except StepError BoundStep}
    (h : Agree (.error e) y) : y = .error e := by
  cases h
  rfl

theorem Agree.error_right {e : StepError} {x : Except StepError BoundStep}
    (h : Agree x (.error e)) : x = .error e := by
  cases h
  rfl

theorem sameShape_of_bind {a b : BoundStep} (h : c.SameNames d) (ha : bind step c = .ok a)
    (hb : bind step d = .ok b) : a.SameShape b := by
  have hkeys : a.command.env.keys = b.command.env.keys := by
    rw [bind_env_keys ha, bind_env_keys hb]
  refine ⟨?_, hkeys, ?_, (bind_timeoutSecs ha).trans (bind_timeoutSecs hb).symm⟩
  · rw [bind_args_length ha, bind_args_length hb, hkeys]
  · rw [bind_withheldEnv ha, bind_withheldEnv hb, withheld_congr hkeys h.secretNames]

theorem bind_agree (h : c.SameNames d) (step : Step) : Agree (bind step c) (bind step d) := by
  have hnames : ∀ n ∈ step.referencedNames, c.contains n = d.contains n :=
    fun n _ => h.contains n
  rcases bind_alike hnames with ⟨key, hc, hd⟩ | ⟨a, b, ha, hb⟩
  · rw [hc, hd]
    exact .missing key
  · rw [ha, hb]
    exact .bound (sameShape_of_bind h ha hb)

end

/-! ### The steps of a plan -/

def markCapture (context : Context) (step : Step) : Context :=
  match step.capture with
  | none => context
  | some name => context.withOutput name (captureMark name)

/-- The context in which a plan binds the step at an index. -/
def planContext (context : Context) (steps : List Step) (i : Nat) : Context :=
  (steps.take i).foldl markCapture context

theorem planFrom_getElem? (base : Nat) (context : Context) (steps : List Step) (i : Nat) :
    (planFrom base context steps)[i]? = steps[i]?.map fun step =>
      { index := base + i, stepId := step.id
        bound := bind step (planContext context steps i) } := by
  induction steps generalizing base context i with
  | nil => rfl
  | cons step rest ih =>
    cases i with
    | zero => rfl
    | succ i =>
      have hb : base + (i + 1) = base + 1 + i := by omega
      rw [planFrom, List.getElem?_cons_succ, List.getElem?_cons_succ, ih, hb]
      rfl

theorem plan_getElem? (p : Pipeline) (context : Context) (i : Nat) :
    (plan p context)[i]? = p.steps[i]?.map fun step =>
      { index := i, stepId := step.id, bound := bind step (planContext context p.steps i) } := by
  rw [plan, planFrom_getElem?, Nat.zero_add]

theorem planContext_succ {context : Context} {steps : List Step} {step : Step} {i : Nat}
    (h : steps[i]? = some step) :
    planContext context steps (i + 1) = markCapture (planContext context steps i) step := by
  simp only [planContext, List.take_add_one, h, Option.toList_some, List.foldl_append,
    List.foldl_cons, List.foldl_nil]

theorem planContext_of_no_capture {context : Context} {steps : List Step} {i : Nat}
    (h : ∀ step ∈ steps.take i, step.capture = none) : planContext context steps i = context := by
  unfold planContext
  generalize steps.take i = before at h
  induction before with
  | nil => rfl
  | cons step rest ih =>
    have hstep : markCapture context step = context := by
      simp only [markCapture, h step List.mem_cons_self]
    rw [List.foldl_cons, hstep]
    exact ih fun u hu => h u (List.mem_cons_of_mem step hu)

end Binding

end PipelineRunner
