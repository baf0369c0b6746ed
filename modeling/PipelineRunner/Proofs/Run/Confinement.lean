import PipelineRunner.Proofs.Binding.Environment
import PipelineRunner.Proofs.Pipeline.Layers
import PipelineRunner.Proofs.Run.Trails

/-!
# Secrets reach the steps that ask for them

A process inherits the runner's environment without the names that its command withholds, and with
the entries of the command laid over it. A command withholds every name that ever was secret and is
not one of its entries, and its entries are those that the step asks for. As no write makes a
context forget such a name, this holds of every command of a run, also after an override or a
captured output has taken the place of the secret.
-/

namespace PipelineRunner

/-! ### The environment of a process -/

theorem Command.environment_contains (c : Command) (inherited : ProcessEnv) (n : String) :
    (c.environment inherited).contains n =
      (c.env.contains n || (!c.withheldEnv.contains n && inherited.contains n)) := by
  have hentries : (c.env.entries.map (·.1)).contains n = c.env.contains n := c.env.contains_keys n
  rw [environment, Dict.contains_foldl_insert, Dict.contains_foldl_erase, hentries,
    Dict.contains_keys]

/-- The step lists a name in its entries or requires it. -/
def Step.Requests (step : Step) (n : String) : Prop :=
  step.env.contains n = true ∨ n ∈ step.requiredEnv

/-- A command of a step shows its process, of the names in `secrets`, those that the step requests;
and of the names in `ever` each is either an entry of the command or withheld. -/
structure Command.Confines (c : Command) (step : Step) (inherited : ProcessEnv)
    (secrets : List String) (ever : NameSet) : Prop where
  seen : ∀ n ∈ secrets, (c.environment inherited).contains n = true ↔ step.Requests n
  divided : ∀ n, ever.contains n = true → c.withheldEnv.contains n = !c.env.contains n

namespace Binding

variable {step : Step} {context : Context} {b : BoundStep}

theorem bind_env_contains (h : bind step context = .ok b) (n : String) :
    b.command.env.contains n = true ↔ step.Requests n := by
  rw [bind_env_contains_eq h, Bool.or_eq_true, List.contains_iff_mem]
  exact Iff.rfl

theorem bind_withheld_contains (h : bind step context = .ok b) (n : String) :
    b.command.withheldEnv.contains n =
      (context.secretNames.contains n && !b.command.env.contains n) := by
  rw [bind_withheldEnv h, withheld_contains]

theorem bind_confines {inherited : ProcessEnv} {secrets : List String}
    (hsecrets : ∀ n ∈ secrets, inherited.contains n = true →
      context.secretNames.contains n = true)
    (h : bind step context = .ok b) :
    b.command.Confines step inherited secrets context.secretNames where
  seen := by
    intro n hn
    rw [← bind_env_contains h, Command.environment_contains, bind_withheld_contains h]
    -- what a process inherits under a secret's name is withheld unless the command has an entry
    cases hinherited : inherited.contains n with
    | false => simp
    | true =>
      rw [hsecrets n hn hinherited]
      cases b.command.env.contains n <;> simp
  divided := by
    intro n hn
    rw [bind_withheld_contains h, hn, Bool.true_and]

end Binding

/-! ### The stages of a run -/

namespace Stage

variable {invoke : Invoker} {s : Stage} {steps : List Step}

theorem next_secretNames (step : Step) :
    (s.next invoke step).context.secretNames = s.context.secretNames := by
  unfold next
  dsimp only
  split
  · rfl
  · rfl

theorem reach_secretNames (i : Nat) :
    (s.reach invoke steps i).context.secretNames = s.context.secretNames := by
  unfold reach
  induction steps.take i generalizing s with
  | nil => rfl
  | cons step rest ih => rw [List.foldl_cons, ih, next_secretNames]

theorem exists_bind_of_command {clock : Clock} {base i : Nat} {state : RunState} {c : Command}
    (h : (s.trail invoke clock base state steps).commands[i]? = some c) :
    ∃ step b, steps[i]? = some step ∧
      Binding.bind step (s.reach invoke steps i).context = .ok b ∧ b.command = c := by
  rw [trail_commands] at h
  split at h
  · obtain ⟨step, hstep, hc⟩ := Option.bind_eq_some_iff.mp h
    unfold command? at hc
    split at hc
    · cases hc
    · rename_i b hb
      exact ⟨step, b, hstep, hb, Option.some.inj hc⟩
  · cases h

end Stage

/-! ### Whole runs -/

/-- Every command of a run confines the secrets of the pipeline to what its step requests. -/
def Execution.Confines (x : Execution) (p : Pipeline) (inherited : ProcessEnv) (ever : NameSet) :
    Prop :=
  ∀ (i : Nat) (c : Command), x.commands[i]? = some c →
    ∃ step, p.steps[i]? = some step ∧ c.Confines step inherited p.secrets ever

theorem execute_confines {p : Pipeline} {context : Context} {inherited : ProcessEnv}
    (hsecrets : ∀ n ∈ p.secrets, inherited.contains n = true →
      context.secretNames.contains n = true)
    (invoke : Invoker) (clock : Clock) (id : Uuid) :
    (execute invoke clock id p context).Confines p inherited context.secretNames := by
  intro i c hc
  have htrail : (p.trail invoke clock id context).commands[i]? = some c := hc
  obtain ⟨step, b, hstep, hb, rfl⟩ := Stage.exists_bind_of_command htrail
  have hnames : ((Stage.initial context).reach invoke p.steps i).context.secretNames =
      context.secretNames := Stage.reach_secretNames i
  refine ⟨step, hstep, ?_⟩
  rw [← hnames] at hsecrets ⊢
  exact Binding.bind_confines hsecrets hb

theorem notTriggeredRun_confines (clock : Clock) (id : Uuid) (p : Pipeline) (event : TriggerEvent)
    (inherited : ProcessEnv) (ever : NameSet) :
    (notTriggeredRun clock id p event).Confines p inherited ever := by
  intro i c hc
  cases hc

/-- In a run from the context that an environment, an event and overrides make, a process in that
environment finds the name of a secret exactly if its step requests it. The names that ever are
secret are, at every step, those that the pipeline lists and the environment sets, and a command has
each of them either as an entry or withheld. -/
theorem run_confines_secrets (p : Pipeline) (env : ProcessEnv) (event : TriggerEvent)
    (overrides : List (String × String)) (invoke : Invoker) (clock : Clock) (id : Uuid) :
    let context := p.initialContext env event overrides
    let s := Stage.initial context
    (∀ n, context.secretNames.contains n = (p.secrets.contains n && env.contains n)) ∧
      (∀ i, (s.reach invoke p.steps i).context.secretNames = context.secretNames) ∧
      (execute invoke clock id p context).Confines p env context.secretNames ∧
      (run invoke clock id p event context).Confines p env context.secretNames := by
  intro context s
  have hnames := p.initialContext_secretNames env event overrides
  have hsecrets : ∀ n ∈ p.secrets, env.contains n = true →
      context.secretNames.contains n = true := by
    intro n hn henv
    rw [hnames, henv, Bool.and_true]
    exact List.contains_iff_mem.mpr hn
  have hexecute := execute_confines hsecrets invoke clock id
  refine ⟨hnames, Stage.reach_secretNames (s := s), hexecute, ?_⟩
  unfold run
  split
  · exact hexecute
  · exact notTriggeredRun_confines clock id p event env context.secretNames

end PipelineRunner
