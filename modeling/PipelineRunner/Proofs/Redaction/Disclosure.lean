import PipelineRunner.Config.Load
import PipelineRunner.History.Summary
import PipelineRunner.Proofs.Binding.Values
import PipelineRunner.Proofs.Run.Trails

/-!
# What a run reports without redaction

The errors of steps and the files and keys of artifacts are not redacted: they stand in events, in
the final states and in the summary as they are. They are made from the program, file and key of a
step alone, so a run discloses no secret as long as these refer to none, nor to an output that has
one. A step whose key refers to a secret discloses it, whether it succeeds or fails.
-/

namespace PipelineRunner

open Text (Lacks)

/-! ### The reported texts -/

def RunEvent.reportedTexts : RunEvent → List String
  | .stepFailed _ _ error _ => [error]
  | .artifactPublished _ file key => [file, key]
  | _ => []

def StepState.reportedTexts : StepState → List String
  | .failed error _ _ _ => [error]
  | _ => []

def Summary.reportedTexts (s : Summary) : List String := s.error.toList ++ s.artifacts

def StepRun.resultTexts (r : StepRun) : List String :=
  match r.result with
  | .error e => [e.message]
  | .ok y => y.publish.toList.flatMap fun a => [a.file, a.key]

def StepRun.reportedTexts (r : StepRun) : List String :=
  r.events.flatMap RunEvent.reportedTexts ++ r.state.reportedTexts ++ r.resultTexts

def Trail.reportedTexts (t : Trail) : List String :=
  t.events.flatMap RunEvent.reportedTexts ++ t.states.flatMap StepState.reportedTexts ++
    t.failure.toList.map (·.error.message) ++ t.artifacts.map (·.key)

/-- The texts that a run reports as they are, in its events, its final states and its summary. -/
def Execution.reportedTexts (x : Execution) : List String :=
  x.events.flatMap RunEvent.reportedTexts ++
    x.outcome.stepStates.flatMap StepState.reportedTexts ++
    (Summary.ofOutcome x.outcome).reportedTexts

/-- No reported text has `v` as a part. -/
def Execution.Conceals (x : Execution) (v : String) : Prop :=
  ∀ t ∈ x.reportedTexts, ¬ v.toList <:+: t.toList

instance (x : Execution) (v : String) : Decidable (x.Conceals v) :=
  inferInstanceAs (Decidable (∀ t ∈ x.reportedTexts, ¬ v.toList <:+: t.toList))

theorem flatMap_skippedEvents_reportedTexts (index : Nat) (steps : List Step) :
    (skippedEvents index steps).flatMap RunEvent.reportedTexts = [] := by
  induction steps generalizing index with
  | nil => rfl
  | cons step rest ih =>
    rw [skippedEvents, List.flatMap_cons, ih]
    rfl

theorem flatMap_pending_reportedTexts (steps : List Step) :
    (steps.map fun _ => StepState.pending).flatMap StepState.reportedTexts = [] := by
  rw [List.flatMap_map]
  exact List.flatMap_eq_nil_iff.mpr fun _ _ => rfl

/-! ### Launch errors -/

/-- The invoker's launch errors have the character at most in the program, and there only if the
program of the command has it. -/
def LaunchesLack (invoke : Invoker) (c : Char) : Prop :=
  ∀ past (command : Command) program cause,
    invoke (past ++ [command]) = .error (.launch program cause) →
      Lacks c cause ∧ (Lacks c command.program → Lacks c program)

/-! ### One step -/

namespace StepEnds

variable {invoke : Invoker} {s : Stage} {index : Nat} {step : Step} {a z : Instant} {r : StepRun}
  {c : Char}

theorem reportedTexts_of_error (h : StepEnds invoke s index step a z r) {e : StepError}
    (he : r.result = .error e) : ∀ t ∈ r.reportedTexts, t = e.message := by
  intro t ht
  cases h with
  | unbound key =>
    cases he
    simpa [StepRun.reportedTexts, StepRun.resultTexts, neverStarted, RunEvent.reportedTexts,
      StepState.fail, StepState.reportedTexts] using ht
  | unlaunched b program cause =>
    cases he
    simpa [StepRun.reportedTexts, StepRun.resultTexts, neverStarted, startedEvent,
      RunEvent.reportedTexts, StepState.fail, StepState.reportedTexts] using ht
  | timedOut b secs =>
    cases he
    simpa [StepRun.reportedTexts, StepRun.resultTexts, failedAfterStart, startedEvent, logEntry,
      RunEvent.reportedTexts, StepState.reportedTexts] using ht
  | failed b o =>
    cases he
    simpa [StepRun.reportedTexts, StepRun.resultTexts, failedAfterStart, startedEvent, logEntry,
      RunEvent.reportedTexts, StepState.reportedTexts] using ht
  | succeeded b o => cases he

theorem reportedTexts_of_ok (h : StepEnds invoke s index step a z r) {y : StepYield}
    (hy : r.result = .ok y) :
    ∃ b, Binding.bind step s.context = .ok b ∧ r.reportedTexts ⊆ b.reportedTexts := by
  cases h with
  | unbound key => cases hy
  | unlaunched b program cause => cases hy
  | timedOut b secs => cases hy
  | failed b o => cases hy
  | succeeded b o hb =>
    refine ⟨b, hb, fun t ht => List.mem_cons_of_mem _ ?_⟩
    simpa [StepRun.reportedTexts, StepRun.resultTexts, startedEvent, RunEvent.reportedTexts,
      StepState.reportedTexts] using ht

section
variable (hwords : StepError.Unworded c) (hstep : ∀ t ∈ step.texts, Lacks c t)
  (hlaunch : LaunchesLack invoke c)
  (hsources : ∀ m ∈ step.reportedSources, ∀ v, s.context.lookup m = some v → Lacks c v)
include hwords hstep hlaunch hsources

theorem error_lacks (h : StepEnds invoke s index step a z r) {e : StepError}
    (he : r.result = .error e) : Lacks c e.message := by
  have hpublish : ∀ b, Binding.bind step s.context = .ok b →
      ∀ x, b.publish = some x → Lacks c x.file ∧ Lacks c x.key := by
    intro b hb x hx
    have hreported := Binding.bind_reportedTexts_lack hb hstep hsources
    simp only [BoundStep.reportedTexts, hx, Option.toList_some, List.flatMap_singleton,
      List.forall_mem_cons] at hreported
    exact ⟨hreported.2.1, hreported.2.2.1⟩
  cases h with
  | unbound key hb =>
    cases he
    apply StepError.message_lacks hwords
    intro u hu
    rw [List.mem_singleton.mp hu]
    exact Binding.missing_lacks hb hstep
  | unlaunched b program cause hb hreply =>
    cases he
    have hprogram : Lacks c b.command.program :=
      Binding.bind_reportedTexts_lack hb hstep hsources _ List.mem_cons_self
    obtain ⟨hcause, hlaunched⟩ := hlaunch _ _ program cause hreply
    apply StepError.message_lacks hwords
    simp only [StepError.texts, List.forall_mem_cons]
    exact ⟨hlaunched hprogram, hcause, by simp⟩
  | timedOut b secs hb =>
    cases he
    exact StepError.uploadOr_message_lacks hwords (hpublish b hb) (by simp [StepError.texts])
  | failed b o hb =>
    cases he
    exact StepError.uploadOr_message_lacks hwords (hpublish b hb)
      (by simp [StepError.exitError_texts])
  | succeeded b o => cases he

/-- The reported texts of a step lack a character from elsewhere, if the values that they are made
from lack it. -/
theorem reportedTexts_lack (h : StepEnds invoke s index step a z r) :
    ∀ t ∈ r.reportedTexts, Lacks c t := by
  intro t ht
  cases hresult : r.result with
  | error e =>
    rw [h.reportedTexts_of_error hresult t ht]
    exact h.error_lacks hwords hstep hlaunch hsources hresult
  | ok y =>
    obtain ⟨b, hb, hsub⟩ := h.reportedTexts_of_ok hresult
    exact Binding.bind_reportedTexts_lack hb hstep hsources t (hsub ht)

end

end StepEnds

/-! ### Many steps -/

theorem Trail.reportedTexts_halted {fate : RunState} {index : Nat} {step : Step}
    {rest : List Step} {r : StepRun} {e : StepError} (he : r.result = .error e) :
    (Trail.halted fate index step rest r e).reportedTexts = r.reportedTexts := by
  simp only [Trail.reportedTexts, Trail.halted, List.flatMap_append, List.flatMap_cons,
    flatMap_skippedEvents_reportedTexts, flatMap_pending_reportedTexts, Option.toList_some,
    List.map_cons, List.map_nil, List.append_nil, StepRun.reportedTexts, StepRun.resultTexts, he]

theorem Trail.mem_reportedTexts_after {context : Context} {step : Step} {r : StepRun}
    {y : StepYield} {rest : Trail} {t : String} (hr : r.result = .ok y)
    (h : t ∈ (Trail.after context step r y rest).reportedTexts) :
    t ∈ r.reportedTexts ∨ t ∈ rest.reportedTexts := by
  have hpublished : (y.publish.toList.map (publishedEvent step)).flatMap RunEvent.reportedTexts =
      r.resultTexts := by
    simp only [StepRun.resultTexts, hr, List.flatMap_map]
    rfl
  have hkeys : ∀ k ∈ y.publish.toList.map (·.key), k ∈ r.resultTexts := by
    intro k hk
    obtain ⟨a, ha, rfl⟩ := List.mem_map.mp hk
    simp only [StepRun.resultTexts, hr]
    exact List.mem_flatMap.mpr ⟨a, ha, by simp⟩
  simp only [Trail.reportedTexts, Trail.after, List.flatMap_append, hpublished,
    List.flatMap_cons, List.map_append, List.mem_append] at h
  simp only [StepRun.reportedTexts, Trail.reportedTexts, List.mem_append]
  -- the summary has the keys again that the events of the artifacts show
  grind

namespace Stage

theorem exists_step_of_reported {invoke : Invoker} {clock : Clock} {s : Stage} {steps : List Step}
    {base : Nat} {state : RunState} {t : String}
    (ht : t ∈ (s.trail invoke clock base state steps).reportedTexts) :
    ∃ i r, s.runAt? invoke clock base steps i = some r ∧ t ∈ r.reportedTexts := by
  induction steps generalizing s base state with
  | nil => cases ht
  | cons step rest ih =>
    cases hy : s.yield? invoke step with
    | none =>
      obtain ⟨e, he, hhalt⟩ := trail_cons_of_none clock base state rest hy
      refine ⟨0, _, runAt?_cons_zero, ?_⟩
      rw [hhalt, Trail.reportedTexts_halted he] at ht
      exact ht
    | some y =>
      have hr := (stepRun_ends invoke clock s base step).result_of_yield hy
      rw [trail_cons_of_some hy] at ht
      rcases Trail.mem_reportedTexts_after hr ht with ht | ht
      · exact ⟨0, _, runAt?_cons_zero, ht⟩
      · obtain ⟨i, r, hi, htr⟩ := ih ht
        exact ⟨i + 1, r, by rw [runAt?_cons_succ, hi], htr⟩

end Stage

/-! ### Values along a run -/

structure Context.PlainlyLacks (context : Context) (c : Char) (m : String) : Prop where
  no_secret : context.secrets.get? m = none
  plain : ∀ v, context.plain.get? m = some v → Lacks c v

namespace Context.PlainlyLacks

variable {context : Context} {c : Char} {m : String}

theorem lookup (h : context.PlainlyLacks c m) {v : String} (hv : context.lookup m = some v) :
    Lacks c v := by
  rw [Context.lookup, h.no_secret, Option.none_or] at hv
  exact h.plain v hv

theorem setVariable (h : context.PlainlyLacks c m) {key value : String}
    (hvalue : key = m → Lacks c value) : (context.setVariable key value).PlainlyLacks c m where
  no_secret := by
    rw [Context.setVariable, Dict.get?_erase, h.no_secret]
    split <;> rfl
  plain := by
    intro v hv
    rw [Context.setVariable, Dict.get?_insert] at hv
    split at hv
    · rename_i hm
      rw [← Option.some.inj hv]
      exact hvalue hm.symm
    · exact h.plain v hv

end Context.PlainlyLacks

namespace Stage

variable {invoke : Invoker} {s : Stage} {steps : List Step} {c : Char} {m : String}

/-- No step before the index `i` captured an output with the character under the name. -/
def CapturesLack (invoke : Invoker) (s : Stage) (steps : List Step) (i : Nat) (c : Char)
    (m : String) : Prop :=
  ∀ j < i, ∀ step y, steps[j]? = some step → s.yieldAt? invoke steps j = some y →
    step.capture = some m → Lacks c (Text.trim y.stdout)

theorem next_plainlyLacks (h : s.context.PlainlyLacks c m) {step : Step}
    (hcapture : ∀ y, s.yield? invoke step = some y → step.capture = some m →
      Lacks c (Text.trim y.stdout)) : (s.next invoke step).context.PlainlyLacks c m := by
  unfold next
  dsimp only
  split
  · rename_i y name hy hname
    apply h.setVariable
    rintro rfl
    exact hcapture y hy hname
  · exact h

theorem reach_plainlyLacks (h : s.context.PlainlyLacks c m) {i : Nat}
    (hcaptures : s.CapturesLack invoke steps i c m) :
    (s.reach invoke steps i).context.PlainlyLacks c m := by
  induction i with
  | zero =>
    rw [reach_zero]
    exact h
  | succ i ih =>
    have hbefore := ih fun j hj => hcaptures j (by omega)
    cases hstep : steps[i]? with
    | none =>
      -- past the last step the stage does not change
      have hpast : s.reach invoke steps (i + 1) = s.reach invoke steps i := by
        simp only [reach, List.take_add_one, hstep, Option.toList_none, List.append_nil]
      rw [hpast]
      exact hbefore
    | some step =>
      rw [reach_succ i hstep]
      apply next_plainlyLacks hbefore
      intro y hy
      exact hcaptures i (by omega) step y hstep (by rw [yieldAt?, hstep, Option.bind_some, hy])

end Stage

/-! ### Whole runs -/

/-- The character comes from elsewhere: it is in no fixed word or number of an error message, in no
text of a step and in no plain value that the run starts with. -/
structure Pipeline.Foreign (p : Pipeline) (context : Context) (c : Char) : Prop where
  words : StepError.Unworded c
  steps : ∀ step ∈ p.steps, ∀ t ∈ step.texts, Lacks c t
  plain : ∀ v ∈ context.plain.values, Lacks c v

/-- What a step reports is made from no secret of the context that the run starts with, and from no
output captured before that has the character. -/
def Pipeline.ReportsLack (p : Pipeline) (context : Context) (invoke : Invoker) (c : Char) : Prop :=
  ∀ (i : Nat) (step : Step), p.steps[i]? = some step → ∀ m ∈ step.reportedSources,
    context.secrets.get? m = none ∧ (Stage.initial context).CapturesLack invoke p.steps i c m

section
variable {invoke : Invoker} {p : Pipeline} {context : Context} {c : Char}

theorem mem_trail_of_reported {clock : Clock} {id : Uuid} {t : String}
    (ht : t ∈ (execute invoke clock id p context).reportedTexts) :
    t ∈ (p.trail invoke clock id context).reportedTexts := by
  simp only [Execution.reportedTexts, execute, List.cons_append, List.flatMap_cons,
    List.flatMap_append, RunEvent.reportedTexts, List.flatMap_nil, List.append_nil,
    List.nil_append, Summary.reportedTexts, Summary.ofOutcome, Option.toList_map] at ht
  simpa [Trail.reportedTexts, Stage.trail, Stage.initial, List.append_assoc] using ht

theorem notTriggeredRun_reportedTexts (clock : Clock) (id : Uuid) (event : TriggerEvent) :
    (notTriggeredRun clock id p event).reportedTexts = [] := by
  simp only [Execution.reportedTexts, notTriggeredRun, flatMap_pending_reportedTexts,
    Summary.reportedTexts, Summary.ofOutcome, List.append_nil]
  rfl

/-- Every text that a run reports lacks the character. -/
theorem execute_reportedTexts_lack (hforeign : p.Foreign context c)
    (hlaunch : LaunchesLack invoke c) (hreports : p.ReportsLack context invoke c) (clock : Clock)
    (id : Uuid) : ∀ t ∈ (execute invoke clock id p context).reportedTexts, Lacks c t := by
  intro t ht
  obtain ⟨i, r, hr, htr⟩ := Stage.exists_step_of_reported (mem_trail_of_reported ht)
  obtain ⟨step, hstep, hends⟩ := Stage.exists_ends_of_run hr
  have htexts := hforeign.steps step (List.mem_of_getElem? hstep)
  refine StepEnds.reportedTexts_lack hforeign.words htexts hlaunch (fun m hm v hv => ?_) hends t htr
  obtain ⟨hsecret, hcaptures⟩ := hreports i step hstep m hm
  have hstart : context.PlainlyLacks c m := by
    refine ⟨hsecret, fun v hv => ?_⟩
    exact hforeign.plain v (Dict.mem_values_iff.mpr ⟨m, hv⟩)
  exact (Stage.reach_plainlyLacks (s := .initial context) hstart hcaptures).lookup hv

end

/-- A run conceals every text with a character from elsewhere, and so every secret that has one, if
what its steps report is made from no secret and from no captured output that has the character. -/
theorem run_conceals_secrets (p : Pipeline) (context : Context) (event : TriggerEvent)
    (invoke : Invoker) (clock : Clock) (id : Uuid) (c : Char) (hforeign : p.Foreign context c)
    (hlaunch : LaunchesLack invoke c) (hreports : p.ReportsLack context invoke c) :
    ∀ v, c ∈ v.toList →
      (execute invoke clock id p context).Conceals v ∧
        (run invoke clock id p event context).Conceals v := by
  intro v hv
  have hexecute : (execute invoke clock id p context).Conceals v := fun t ht =>
    (execute_reportedTexts_lack hforeign hlaunch hreports clock id t ht).no_part hv
  refine ⟨hexecute, ?_⟩
  unfold run
  split
  · exact hexecute
  · intro t ht
    rw [notTriggeredRun_reportedTexts] at ht
    cases ht

/-- A pipeline whose upload gets the secret as an argument, and its key from an output. -/
def releaseConfig : PipelineConfig :=
  { PipelineConfig.blank with
    name := "release"
    secrets := ["TOKEN"]
    steps :=
      [{ StepConfig.blank with
          id := "version", run := ["cargo", "version"], capture := some "version" },
        { StepConfig.blank with
          id := "upload", run := ["put", "--key", "\x7b\x7bTOKEN\x7d\x7d"]
          publishes := some
            ⟨"schema.json", "\x7b\x7bbranch\x7d\x7d/\x7b\x7bversion\x7d\x7d.json"⟩ }] }

def uploadEnv : ProcessEnv := Dict.ofList [("TOKEN", "s~cret")]

def releaseContext : Context :=
  releaseConfig.toPipeline.initialContext uploadEnv (.push "devel") []

def releaseInvoker : Invoker := fun commands =>
  if commands.length = 1 then .ok ⟨some 0, "1.2\n", ""⟩ else .ok ⟨some 1, "", "s~cret denied"⟩

def released : Execution :=
  execute releaseInvoker (fun n => ⟨n, 0⟩) .nil releaseConfig.toPipeline releaseContext

theorem released_conceals :
    releaseContext.secrets.values = ["s~cret"] ∧
      "upload of 'schema.json' to 'devel/1.2.json' failed: process exited with code 1" ∈
        released.reportedTexts ∧
      released.Conceals "s~cret" := by
  have hforeign : releaseConfig.toPipeline.Foreign releaseContext '~' :=
    ⟨⟨by decide +kernel, by decide, by decide⟩, by decide +kernel, by decide +kernel⟩
  have hlaunch : LaunchesLack releaseInvoker '~' := by
    intro past command program cause h
    unfold releaseInvoker at h
    split at h <;> cases h
  have hreports : releaseConfig.toPipeline.ReportsLack releaseContext releaseInvoker '~' := by
    intro i step hstep m hm
    match i with
    | 0 =>
      cases hstep
      have hnone : m ∈ ([] : List String) := hm
      cases hnone
    | 1 =>
      cases hstep
      have hnames : ∀ n ∈ ["branch", "version"], releaseContext.secrets.get? n = none := by
        decide +kernel
      refine ⟨hnames m hm, fun j hj step y hstep hy _ => ?_⟩
      obtain rfl : j = 0 := by omega
      have hyield : y = ⟨"1.2\n", none⟩ := by
        cases hy
        rfl
      rw [hyield]
      decide +kernel
    | i + 2 => cases hstep
  have h := run_conceals_secrets releaseConfig.toPipeline releaseContext (.push "devel")
    releaseInvoker (fun n => ⟨n, 0⟩) .nil '~' hforeign hlaunch hreports "s~cret" (by decide +kernel)
  exact ⟨by decide +kernel, by decide +kernel, h.1⟩

end PipelineRunner
