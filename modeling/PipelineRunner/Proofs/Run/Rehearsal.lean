import PipelineRunner.Proofs.Binding.Plan
import PipelineRunner.Proofs.Run.FinalState
import PipelineRunner.Session.Queries

/-!
# A plan foretells a run

As far as a run gets, the context of its stage and that of the plan have values for the same names:
where the run binds the output of a step that succeeded, the plan binds a mark. So each step is
bound alike in both, whatever the invoker replies, and a plan without errors rules out missing
variables.
-/

namespace PipelineRunner

/-- The run bound the step at an index with this outcome: it invoked the command, or it failed there
with the error. -/
structure Execution.BindsAt (x : Execution) (i : Nat) (step : Step)
    (bound : Except StepError BoundStep) : Prop where
  command : x.commands[i]? = bound.toOption.map (·.command)
  failure : ∀ e, bound = .error e → x.outcome.failure = some ⟨i, step.id, e⟩

/-! ### Missing variables -/

namespace StepEnds

variable {invoke : Invoker} {s : Stage} {index : Nat} {step : Step} {a z : Instant} {r : StepRun}

theorem result_of_unbound (h : StepEnds invoke s index step a z r) {e : StepError}
    (he : Binding.bind step s.context = .error e) : r.result = .error e := by
  cases h with
  | unbound key hb =>
    rw [hb] at he
    cases he
    rfl
  | unlaunched b program cause hb => simp [hb] at he
  | timedOut b secs hb => simp [hb] at he
  | failed b o hb => simp [hb] at he
  | succeeded b o hb => simp [hb] at he

theorem uploadOr_ne_missing {publish : Option Artifact} {e : StepError} {key : String}
    (h : e ≠ .missingVariable key) : uploadOr publish e ≠ .missingVariable key := by
  cases publish with
  | none => exact h
  | some a => exact StepError.noConfusion

theorem unbound_of_missing (h : StepEnds invoke s index step a z r) {key : String}
    (he : r.result = .error (.missingVariable key)) :
    Binding.bind step s.context = .error (.missingVariable key) := by
  cases h with
  | unbound k hb =>
    cases he
    exact hb
  | unlaunched b program cause => cases he
  | timedOut b secs =>
    exact absurd (Except.error.inj he) (uploadOr_ne_missing StepError.noConfusion)
  | failed b o =>
    have hexit : exitError o.exitCode ≠ .missingVariable key := by
      cases o.exitCode with
      | none => exact StepError.noConfusion
      | some code => exact StepError.noConfusion
    exact absurd (Except.error.inj he) (uploadOr_ne_missing hexit)
  | succeeded b o => cases he

end StepEnds

/-! ### The stages of a run and the contexts of a plan -/

namespace Stage

open Binding (planContext markCapture)

variable {invoke : Invoker} {clock : Clock} {s : Stage} {steps : List Step} {step : Step} {i : Nat}

theorem next_sameNames {c : Context} (h : s.context.SameNames c)
    (hy : (s.yield? invoke step).isSome = true) :
    (s.next invoke step).context.SameNames (markCapture c step) := by
  obtain ⟨y, hy⟩ := Option.isSome_iff_exists.mp hy
  rw [← nextContext_eq hy]
  unfold nextContext markCapture
  cases step.capture with
  | none => exact h
  | some name => exact h.setVariable name _ _

theorem reach_sameNames (hi : i ≤ s.halt invoke steps) :
    (s.reach invoke steps i).context.SameNames (planContext s.context steps i) := by
  induction i with
  | zero =>
    rw [reach_zero]
    exact .refl s.context
  | succ i ih =>
    obtain ⟨step, y, r, hstep, hy, -⟩ := exists_run_of_lt (fun _ => default) 0 hi
    have hyield : ((s.reach invoke steps i).yield? invoke step).isSome = true := by
      rw [yieldAt?, hstep, Option.bind_some] at hy
      rw [hy, Option.isSome_some]
    -- a step before `halt` succeeded, so the run captures where the plan marks
    rw [reach_succ i hstep, Binding.planContext_succ hstep]
    exact next_sameNames (ih (by omega)) hyield

theorem reach_context_of_no_capture (h : ∀ u ∈ steps.take i, u.capture = none) :
    (s.reach invoke steps i).context = s.context := by
  unfold reach
  generalize steps.take i = before at h
  induction before generalizing s with
  | nil => rfl
  | cons u rest ih =>
    have hu : (s.next invoke u).context = s.context := by
      unfold next
      rw [h u List.mem_cons_self]
      cases s.yield? invoke u <;> rfl
    rw [List.foldl_cons, ih fun v hv => h v (List.mem_cons_of_mem u hv), hu]

theorem halt_eq_of_unbound {e : StepError} (hi : i ≤ s.halt invoke steps)
    (hstep : steps[i]? = some step)
    (he : Binding.bind step (s.reach invoke steps i).context = .error e) :
    s.halt invoke steps = i := by
  by_cases hlt : i < s.halt invoke steps
  · obtain ⟨step', y, r, hstep', hy, -⟩ := exists_run_of_lt (fun _ => default) 0 hlt
    rw [hstep] at hstep'
    cases hstep'
    simp [yieldAt?, hstep, yield?, he] at hy
  · omega

end Stage

/-! ### Whole runs -/

section
variable {invoke : Invoker} {clock : Clock} {id : Uuid} {p : Pipeline} {context : Context}

/-- Up to the place where a run stops, it binds each step from its stage. -/
theorem execute_bindsAt {i : Nat} {step : Step}
    (hi : i ≤ (Stage.initial context).halt invoke p.steps) (hstep : p.steps[i]? = some step) :
    (execute invoke clock id p context).BindsAt i step
      (Binding.bind step ((Stage.initial context).reach invoke p.steps i).context) := by
  let s := Stage.initial context
  constructor
  · have hcommands : (execute invoke clock id p context).commands[i]? =
        (p.trail invoke clock id context).commands[i]? := rfl
    rw [hcommands, Stage.trail_commands, if_pos hi, Stage.commandAt?, hstep, Option.bind_some,
      Stage.command?]
    cases Binding.bind step (s.reach invoke p.steps i).context with
    | error e => rfl
    | ok b => rfl
  · intro e he
    have hhalt : s.halt invoke p.steps = i := Stage.halt_eq_of_unbound hi hstep he
    have hat : p.steps[s.halt invoke p.steps]? = some step := by rw [hhalt, hstep]
    obtain ⟨r, e', hr, he', hf⟩ := execute_failure_of_some clock id hat
    have hends := Stage.ends_of_run hat hr
    have hunbound : Binding.bind step (s.reach invoke p.steps (s.halt invoke p.steps)).context =
        .error e := by rw [hhalt, he]
    rw [hends.result_of_unbound hunbound] at he'
    cases he'
    rw [hhalt] at hf
    exact hf

theorem exists_unbound_of_missing {f : StepFailure} {key : String}
    (hf : (execute invoke clock id p context).outcome.failure = some f)
    (hkey : f.error = .missingVariable key) :
    ∃ i step, i ≤ (Stage.initial context).halt invoke p.steps ∧ p.steps[i]? = some step ∧
      Binding.bind step ((Stage.initial context).reach invoke p.steps i).context =
        .error (.missingVariable key) := by
  let s := Stage.initial context
  cases hstep : p.steps[s.halt invoke p.steps]? with
  | none =>
    rw [execute_failure_of_none clock id hstep] at hf
    cases hf
  | some step =>
    obtain ⟨r, e, hr, he, hfailure⟩ := execute_failure_of_some clock id hstep
    rw [hf] at hfailure
    cases hfailure
    have he : r.result = .error (.missingVariable key) := he.trans (congrArg _ hkey)
    exact ⟨_, step, Nat.le_refl _, hstep, (Stage.ends_of_run hstep hr).unbound_of_missing he⟩

theorem execute_misses_nothing
    (hplan : ∀ q ∈ Binding.plan p context, q.bound.isOk = true) {f : StepFailure}
    (hf : (execute invoke clock id p context).outcome.failure = some f) (key : String) :
    f.error ≠ .missingVariable key := by
  intro hkey
  obtain ⟨i, step, hi, hstep, hunbound⟩ := exists_unbound_of_missing hf hkey
  have hagree := Binding.bind_agree (Stage.reach_sameNames hi) step
  rw [hunbound] at hagree
  have hplanned := Binding.plan_getElem? p context i
  rw [hstep, Option.map_some] at hplanned
  have hok : (Binding.bind step (Binding.planContext context p.steps i)).isOk = true :=
    hplan _ (List.mem_of_getElem? hplanned)
  have herror : Binding.bind step (Binding.planContext context p.steps i) =
      .error (.missingVariable key) := hagree.error_left
  rw [herror] at hok
  cases hok

/-- A run stops at the latest where the plan has an error. -/
theorem execute_fails_by {i : Nat} {q : Binding.Planned} {e : StepError}
    (hq : (Binding.plan p context)[i]? = some q) (he : q.bound = .error e) :
    ∃ f, (execute invoke clock id p context).outcome.failure = some f ∧ f.index ≤ i := by
  let s := Stage.initial context
  rw [Binding.plan_getElem?] at hq
  obtain ⟨step, hstep, rfl⟩ := Option.map_eq_some_iff.mp hq
  by_cases hi : i ≤ s.halt invoke p.steps
  · have hagree := Binding.bind_agree (Stage.reach_sameNames (s := s) hi) step
    have hbinds : (execute invoke clock id p context).BindsAt i step
        (Binding.bind step (s.reach invoke p.steps i).context) := execute_bindsAt hi hstep
    have hplanned : Binding.bind step (Binding.planContext s.context p.steps i) = .error e := he
    rw [hplanned] at hagree
    exact ⟨_, hbinds.failure e hagree.error_right, Nat.le_refl i⟩
  · -- the run stopped before, so it failed there for a reason of its own
    have hlt : s.halt invoke p.steps < p.steps.length := by
      obtain ⟨hlen, -⟩ := List.getElem?_eq_some_iff.mp hstep
      omega
    obtain ⟨r, e, -, -, hf⟩ :=
      execute_failure_of_some clock id (List.getElem?_eq_getElem hlt)
    exact ⟨_, hf, Nat.le_of_lt (Nat.lt_of_not_le hi)⟩

end

theorem rehearse_ok_iff (t : Terminal) {p : Pipeline} {event : TriggerEvent} (context : Context)
    (h : p.isTriggeredBy event = true) :
    (Session.rehearse t p event context).1 = true ↔
      ∀ q ∈ Binding.plan p context, q.bound.isOk = true := by
  rw [Session.rehearse, if_pos h]
  exact List.all_eq_true

/-- A plan and a run agree on binding. With `h` the index at which the run stops: each step up to
there is bound as in the plan, to the same missing variable or to a command of the same shape, and
to the very same if no step before it captures. So if a dry run succeeds no invoker can make the run
miss a variable, and if the plan has an error at an index the run fails there or before. -/
theorem plan_agrees_with_execute (invoke : Invoker) (clock : Clock) (id : Uuid) (p : Pipeline)
    (context : Context) :
    let s := Stage.initial context
    let x := execute invoke clock id p context
    let planned := Binding.plan p context
    (∃ h, s.HaltsAt invoke p.steps h ∧
      ∀ i ≤ h, ∀ step, p.steps[i]? = some step →
        ∃ bound q, bound = Binding.bind step (s.reach invoke p.steps i).context ∧
          x.BindsAt i step bound ∧ planned[i]? = some q ∧ Binding.Agree bound q.bound ∧
          ((∀ u ∈ p.steps.take i, u.capture = none) → bound = q.bound)) ∧
    (∀ t event, p.isTriggeredBy event = true →
      ((Session.rehearse t p event context).1 = true ↔ ∀ q ∈ planned, q.bound.isOk = true)) ∧
    ((∀ q ∈ planned, q.bound.isOk = true) →
      ∀ f, x.outcome.failure = some f → ∀ key, f.error ≠ .missingVariable key) ∧
    (∀ i q e, planned[i]? = some q → q.bound = .error e →
      ∃ f, x.outcome.failure = some f ∧ f.index ≤ i) := by
  intro s x planned
  refine ⟨⟨s.halt invoke p.steps, Stage.haltsAt_halt invoke s p.steps, ?_⟩, ?_, ?_, ?_⟩
  · intro i hi step hstep
    have hplanned := Binding.plan_getElem? p context i
    rw [hstep, Option.map_some] at hplanned
    refine ⟨_, _, rfl, execute_bindsAt hi hstep, hplanned,
      Binding.bind_agree (Stage.reach_sameNames hi) step, fun hnone => ?_⟩
    rw [Stage.reach_context_of_no_capture hnone, Binding.planContext_of_no_capture hnone]
    rfl
  · intro t event htriggered
    exact rehearse_ok_iff t context htriggered
  · intro hplan f hf key
    exact execute_misses_nothing hplan hf key
  · intro i q e hq he
    exact execute_fails_by hq he

end PipelineRunner
