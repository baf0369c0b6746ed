import PipelineRunner.Proofs.Config.Validation
import PipelineRunner.Proofs.Context.Secrets
import PipelineRunner.Proofs.Run.Trails

/-!
# Secrets stay out of what a run shows

The redacted channels of a run are the command lines and outputs in its events, the outputs in its
log and the captured outputs. Every text in them was redacted against the context of its step. As
no step of a valid pipeline captures into the name of a secret, that context has the secrets the run
started with, whatever plain variables the steps before captured.
-/

namespace PipelineRunner

/-! ### The redacted channels -/

def RunEvent.redactedTexts : RunEvent → List String
  | .stepStarted _ _ command => [command]
  | .stepSucceeded _ _ output => [output]
  | .stepFailed _ _ _ output => [output]
  | _ => []

def RunResult.redactedTexts (r : RunResult) : List String := [r.stdout, r.stderr]

def StepRun.redactedTexts (r : StepRun) : List String :=
  r.events.flatMap RunEvent.redactedTexts ++ r.entry.toList.flatMap RunResult.redactedTexts

def Trail.redactedTexts (t : Trail) : List String :=
  t.events.flatMap RunEvent.redactedTexts ++ t.entries.flatMap RunResult.redactedTexts ++
    t.captured.map (·.2)

/-- The texts in the redacted channels of a run. -/
def Execution.redactedTexts (x : Execution) : List String :=
  x.events.flatMap RunEvent.redactedTexts ++
    x.outcome.runLog.results.flatMap RunResult.redactedTexts ++ x.outcome.captured.values

/-- No secret of `c` but the empty text is a part of a text in the redacted channels. -/
def Execution.Hides (x : Execution) (c : Context) : Prop :=
  ∀ v ∈ c.secrets.values, v ≠ "" → ∀ t ∈ x.redactedTexts, ¬ v.toList <:+: t.toList

theorem flatMap_publishedEvent_redactedTexts (step : Step) (l : List Artifact) :
    (l.map (publishedEvent step)).flatMap RunEvent.redactedTexts = [] := by
  simp [publishedEvent, RunEvent.redactedTexts]

theorem flatMap_skippedEvents_redactedTexts (index : Nat) (steps : List Step) :
    (skippedEvents index steps).flatMap RunEvent.redactedTexts = [] := by
  induction steps generalizing index with
  | nil => rfl
  | cons step rest ih =>
    rw [skippedEvents, List.flatMap_cons, ih]
    rfl

/-! ### One step -/

theorem shownOutput_eq (stdout stderr : String) :
    shownOutput stdout stderr = stdout ∨ shownOutput stdout stderr = stderr := by
  unfold shownOutput
  split
  · exact Or.inl rfl
  · exact Or.inr rfl

theorem redactedTexts_neverStarted (index : Nat) (step : Step) (events : List RunEvent)
    (command : Option Command) (a z : Instant) (e : StepError) :
    (neverStarted index step events command a z e).redactedTexts =
      events.flatMap RunEvent.redactedTexts ++ [""] := by
  simp [StepRun.redactedTexts, neverStarted, RunEvent.redactedTexts]

theorem redactedTexts_failedAfterStart (s : Stage) (index : Nat) (step : Step) (b : BoundStep)
    (e : StepError) (shown : String) (entry : RunResult) :
    (failedAfterStart s index step b e shown entry).redactedTexts =
      [s.context.redact b.command.displayLine, shown, entry.stdout, entry.stderr] := by
  simp [StepRun.redactedTexts, failedAfterStart, startedEvent, RunEvent.redactedTexts,
    RunResult.redactedTexts]

/-- Every redacted text of a step is redacted against the context the step is bound in. -/
theorem StepEnds.exists_redact {invoke : Invoker} {s : Stage} {index : Nat} {step : Step}
    {a z : Instant} {r : StepRun} (h : StepEnds invoke s index step a z r) {t : String}
    (ht : t ∈ r.redactedTexts) : ∃ u, t = s.context.redact u := by
  have hempty : "" = s.context.redact "" := s.context.redact_empty.symm
  cases h with
  | unbound key =>
    rw [redactedTexts_neverStarted] at ht
    exact ⟨"", (List.mem_singleton.mp ht).trans hempty⟩
  | unlaunched b program cause =>
    rw [redactedTexts_neverStarted] at ht
    rcases List.mem_append.mp ht with ht | ht
    · exact ⟨_, List.mem_singleton.mp ht⟩
    · exact ⟨"", (List.mem_singleton.mp ht).trans hempty⟩
  | timedOut b secs =>
    rw [redactedTexts_failedAfterStart] at ht
    rcases List.mem_cons.mp ht with ht | ht
    · exact ⟨_, ht⟩
    · have hall : t = "" := by simpa [logEntry] using ht
      exact ⟨"", hall.trans hempty⟩
  | failed b o =>
    simp only [redactedTexts_failedAfterStart, logEntry, List.mem_cons, List.not_mem_nil,
      or_false] at ht
    rcases ht with ht | ht | ht | ht
    · exact ⟨_, ht⟩
    · rcases shownOutput_eq (s.context.redact o.stdout) (s.context.redact o.stderr) with hs | hs
      · exact ⟨_, ht.trans hs⟩
      · exact ⟨_, ht.trans hs⟩
    · exact ⟨_, ht⟩
    · exact ⟨_, ht⟩
  | succeeded b o =>
    have hall : t = s.context.redact b.command.displayLine ∨ t = s.context.redact o.stdout ∨
        t = s.context.redact o.stderr := by
      simpa [StepRun.redactedTexts, startedEvent, RunEvent.redactedTexts, logEntry,
        RunResult.redactedTexts] using ht
    rcases hall with ht | ht | ht
    · exact ⟨_, ht⟩
    · exact ⟨_, ht⟩
    · exact ⟨_, ht⟩

/-! ### Many steps -/

theorem Trail.redactedTexts_halted (fate : RunState) (index : Nat) (step : Step)
    (rest : List Step) (r : StepRun) (e : StepError) :
    (Trail.halted fate index step rest r e).redactedTexts = r.redactedTexts := by
  simp only [Trail.redactedTexts, Trail.halted, StepRun.redactedTexts, List.flatMap_append,
    flatMap_skippedEvents_redactedTexts, List.append_nil, List.map_nil]

theorem Trail.mem_redactedTexts_after {context : Context} {step : Step} {r : StepRun}
    {y : StepYield} {rest : Trail} {t : String}
    (h : t ∈ (Trail.after context step r y rest).redactedTexts) :
    t ∈ r.redactedTexts ∨ t = context.redact (Text.trim y.stdout) ∨ t ∈ rest.redactedTexts := by
  simp only [Trail.redactedTexts, Trail.after, List.flatMap_append,
    flatMap_publishedEvent_redactedTexts, List.append_nil, List.map_append, List.mem_append] at h
  rcases h with ((h | h) | (h | h)) | (h | h)
  · exact Or.inl (List.mem_append_left _ h)
  · exact Or.inr (Or.inr (List.mem_append_left _ (List.mem_append_left _ h)))
  · exact Or.inl (List.mem_append_right _ h)
  · exact Or.inr (Or.inr (List.mem_append_left _ (List.mem_append_right _ h)))
  · unfold capturedBy at h
    split at h
    · cases h
    · exact Or.inr (Or.inl (List.mem_singleton.mp h))
  · exact Or.inr (Or.inr (List.mem_append_right _ h))

namespace Stage

variable {invoke : Invoker} {clock : Clock} {s : Stage} {steps : List Step}

theorem exists_redact_of_mem_trail {base : Nat} {state : RunState} {t : String}
    (ht : t ∈ (s.trail invoke clock base state steps).redactedTexts) :
    ∃ i u, t = (s.reach invoke steps i).context.redact u := by
  induction steps generalizing s base state with
  | nil => cases ht
  | cons step rest ih =>
    have hstep : t ∈ (s.stepRun invoke clock base step).redactedTexts →
        ∃ i u, t = (s.reach invoke (step :: rest) i).context.redact u := by
      intro h
      obtain ⟨u, hu⟩ := (stepRun_ends invoke clock s base step).exists_redact h
      exact ⟨0, u, by rw [reach_zero, hu]⟩
    cases hy : s.yield? invoke step with
    | none =>
      obtain ⟨e, -, hhalt⟩ := trail_cons_of_none clock base state rest hy
      rw [hhalt, Trail.redactedTexts_halted] at ht
      exact hstep ht
    | some y =>
      rw [trail_cons_of_some hy] at ht
      rcases Trail.mem_redactedTexts_after ht with ht | ht | ht
      · exact hstep ht
      · exact ⟨0, _, by rw [reach_zero, ht]⟩
      · obtain ⟨i, u, hu⟩ := ih ht
        exact ⟨i + 1, u, by rw [reach_cons_succ, hu]⟩

theorem next_secrets {step : Step}
    (h : ∀ name, step.capture = some name → s.context.secrets.get? name = none) :
    (s.next invoke step).context.secrets = s.context.secrets := by
  unfold next
  dsimp only
  split
  · rename_i y name hy hc
    exact Context.setVariable_secrets _ (h name hc)
  · rfl

theorem reach_secrets
    (h : ∀ step ∈ steps, ∀ name, step.capture = some name → s.context.secrets.get? name = none)
    (i : Nat) : (s.reach invoke steps i).context.secrets = s.context.secrets := by
  induction steps generalizing s i with
  | nil => rw [reach, List.take_nil, List.foldl_nil]
  | cons step rest ih =>
    cases i with
    | zero => rw [reach_zero]
    | succ i =>
      have hnext : (s.next invoke step).context.secrets = s.context.secrets :=
        next_secrets (h step List.mem_cons_self)
      rw [reach_cons_succ, ← hnext]
      refine ih (fun x hx name hname => ?_) i
      rw [hnext]
      exact h x (List.mem_cons_of_mem step hx) name hname

end Stage

/-! ### Whole runs -/

theorem mem_trail_of_mem_execute {invoke : Invoker} {clock : Clock} {id : Uuid} {p : Pipeline}
    {context : Context} {t : String}
    (ht : t ∈ (execute invoke clock id p context).redactedTexts) :
    t ∈ (p.trail invoke clock id context).redactedTexts := by
  simp only [Execution.redactedTexts, execute, List.cons_append, List.flatMap_cons,
    List.flatMap_append, RunEvent.redactedTexts, List.flatMap_nil, List.append_nil,
    List.nil_append, List.mem_append] at ht
  rcases ht with (ht | ht) | ht
  · exact List.mem_append_left _ (List.mem_append_left _ ht)
  · exact List.mem_append_left _ (List.mem_append_right _ ht)
  · obtain ⟨e, he, hv⟩ := Dict.written_of_mem_values ht
    exact List.mem_append_right _ (List.mem_map.mpr ⟨e, he, hv⟩)

theorem execute_hides {p : Pipeline} {context : Context}
    (hcapture : ∀ step ∈ p.steps, ∀ name, step.capture = some name →
      context.secrets.get? name = none)
    (hapart : ∀ v ∈ context.secrets.values, v ≠ "" →
      Text.Apart v.toList redactionMark.toList)
    (invoke : Invoker) (clock : Clock) (id : Uuid) :
    (execute invoke clock id p context).Hides context := by
  intro v hv hne t ht
  obtain ⟨i, u, rfl⟩ := Stage.exists_redact_of_mem_trail (mem_trail_of_mem_execute ht)
  have hsecrets : ((Stage.initial context).reach invoke p.steps i).context.secrets =
      context.secrets := Stage.reach_secrets (s := .initial context) hcapture i
  rw [Context.redact_congr hsecrets u]
  exact Context.not_infix_redact hv hne (hapart v hv hne) u

theorem notTriggeredRun_hides (clock : Clock) (id : Uuid) (p : Pipeline) (event : TriggerEvent)
    (context : Context) : (notTriggeredRun clock id p event).Hides context := by
  intro v _ _ t ht
  simp [Execution.redactedTexts, notTriggeredRun, RunEvent.redactedTexts, RunLog.empty,
    Dict.values, Dict.empty] at ht

/-- A run of a valid pipeline from the context it starts with hides every secret of that context
that does not overlap the mark. -/
theorem run_hides_secrets (pathExists : String → Bool) (c : PipelineConfig) (env : ProcessEnv)
    (event : TriggerEvent) (overrides : List (String × String)) (invoke : Invoker) (clock : Clock)
    (id : Uuid) (hvalid : c.validate pathExists = .ok ())
    (hapart : ∀ v ∈ (c.toPipeline.initialContext env event overrides).secrets.values, v ≠ "" →
      Text.Apart v.toList redactionMark.toList) :
    let context := c.toPipeline.initialContext env event overrides
    (execute invoke clock id c.toPipeline context).Hides context ∧
      (run invoke clock id c.toPipeline event context).Hides context := by
  intro context
  have hcapture : ∀ step ∈ c.toPipeline.steps, ∀ name, step.capture = some name →
      context.secrets.get? name = none := by
    intro step hstep name hname
    cases hget : context.secrets.get? name with
    | none => rfl
    | some v =>
      have hfrom := c.toPipeline.initialContext_secretsFrom env event overrides name v hget
      exact absurd hfrom.1 (PipelineConfig.capture_not_secret hvalid hstep hname)
  have hexecute := execute_hides hcapture hapart invoke clock id
  refine ⟨hexecute, ?_⟩
  unfold run
  split
  · exact hexecute
  · exact notTriggeredRun_hides clock id c.toPipeline event context

/-- A pipeline that captures the secret it reads and passes the capture on. -/
def relayConfig : PipelineConfig :=
  { PipelineConfig.blank with
    name := "relay"
    secrets := ["TOKEN"]
    steps :=
      [{ StepConfig.blank with
          id := "read", run := ["vault", "read"], requiredEnv := ["TOKEN"], capture := some "copy" },
        { StepConfig.blank with
          id := "use", run := ["deploy", "--key", "\x7b\x7bcopy\x7d\x7d"] }] }

def relayEnv : ProcessEnv := Dict.ofList [("TOKEN", "s3cret")]

def relayContext : Context := relayConfig.toPipeline.initialContext relayEnv .manual []

/-- The first command prints the secret, the second fails with it in its error output. -/
def relayInvoker : Invoker := fun commands =>
  if commands.length = 1 then .ok ⟨some 0, "s3cret\n", ""⟩
  else .ok ⟨some 1, "", "no access for s3cret"⟩

def relayed : Execution :=
  execute relayInvoker (fun n => ⟨n, 0⟩) .nil relayConfig.toPipeline relayContext

theorem relayed_hides :
    relayConfig.validate (fun _ => true) = .ok () ∧ relayContext.secrets.values = ["s3cret"] ∧
      relayed.commands.map (·.args) = [["read"], ["--key", "s3cret"]] ∧
      relayed.Hides relayContext := by
  have hvalid : relayConfig.validate (fun _ => true) = .ok () := rfl
  have hapart : ∀ v ∈ relayContext.secrets.values, v ≠ "" →
      Text.Apart v.toList redactionMark.toList := by decide +kernel
  have h := run_hides_secrets (fun _ => true) relayConfig relayEnv .manual [] relayInvoker
    (fun n => ⟨n, 0⟩) .nil hvalid hapart
  exact ⟨hvalid, by decide +kernel, by decide +kernel, h.1⟩

end PipelineRunner
