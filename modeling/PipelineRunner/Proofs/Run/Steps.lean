import PipelineRunner.Proofs.Binding.Outcome
import PipelineRunner.Proofs.Run.Stages

/-!
# How a step ends

`StepEnds` is the relation of running one step: five exits, each with its condition and with all
that the step leaves behind. `runStep` lands in it (`runStep_ends`), and what later proofs need of a
step is read off the exits here, once for all runs.
-/

namespace PipelineRunner

def startedEvent (s : Stage) (index : Nat) (step : Step) (b : BoundStep) : RunEvent :=
  .stepStarted index step.id (s.context.redact b.command.displayLine)

/-- What a step leaves behind whose process was started and failed. -/
def failedAfterStart (s : Stage) (index : Nat) (step : Step) (b : BoundStep) (e : StepError)
    (shown : String) (entry : RunResult) : StepRun :=
  { events := [startedEvent s index step b, .stepFailed index step.id e.message shown]
    command := some b.command
    state := entry.state
    entry := some entry
    result := .error e }

/-- The exits of a step that runs from stage `s` between the instants `a` and `z`. -/
inductive StepEnds (invoke : Invoker) (s : Stage) (index : Nat) (step : Step) (a z : Instant) :
    StepRun → Prop
  | unbound (key : String) :
    Binding.bind step s.context = .error (.missingVariable key) →
    StepEnds invoke s index step a z (neverStarted index step [] none a z (.missingVariable key))
  | unlaunched (b : BoundStep) (program cause : String) :
    Binding.bind step s.context = .ok b →
    invoke (s.commands ++ [b.command]) = .error (.launch program cause) →
    StepEnds invoke s index step a z
      (neverStarted index step [startedEvent s index step b] (some b.command) a z
        (.launch program cause))
  | timedOut (b : BoundStep) (secs : Nat) :
    Binding.bind step s.context = .ok b →
    invoke (s.commands ++ [b.command]) = .error (.timeout secs) →
    StepEnds invoke s index step a z
      (failedAfterStart s index step b (uploadOr b.publish (.timeout secs)) ""
        (logEntry index step (.timedOut secs a z) none "" "" a z))
  | failed (b : BoundStep) (o : ProcessOutput) :
    Binding.bind step s.context = .ok b →
    invoke (s.commands ++ [b.command]) = .ok o →
    o.exitCode ≠ some 0 →
    StepEnds invoke s index step a z
      (failedAfterStart s index step b (uploadOr b.publish (exitError o.exitCode))
        (shownOutput (s.context.redact o.stdout) (s.context.redact o.stderr))
        (logEntry index step
          (.failed (uploadOr b.publish (exitError o.exitCode)).message o.exitCode a z) o.exitCode
          (s.context.redact o.stdout) (s.context.redact o.stderr) a z))
  | succeeded (b : BoundStep) (o : ProcessOutput) :
    Binding.bind step s.context = .ok b →
    invoke (s.commands ++ [b.command]) = .ok o →
    o.exitCode = some 0 →
    StepEnds invoke s index step a z
      { events :=
          [startedEvent s index step b, .stepSucceeded index step.id (s.context.redact o.stdout)]
        command := some b.command
        state := .succeeded 0 a z
        entry := some (logEntry index step (.succeeded 0 a z) (some 0) (s.context.redact o.stdout)
          (s.context.redact o.stderr) a z)
        result := .ok ⟨o.stdout, b.publish⟩ }

/-! ### Errors -/

theorem uploadOr_processStarted (publish : Option Artifact) {e : StepError}
    (h : e.processStarted = true) : (uploadOr publish e).processStarted = true := by
  cases publish with
  | none => exact h
  | some a => rfl

theorem exitError_processStarted (code : Option Int) :
    (exitError code).processStarted = true := by
  cases code with
  | none => rfl
  | some c => rfl

/-! ### The exits of `runStep` -/

theorem ProcessOutput.success_iff (o : ProcessOutput) : o.success = true ↔ o.exitCode = some 0 := by
  simp [ProcessOutput.success]

/-- Running a step ends in one of the exits. -/
theorem runStep_ends (invoke : Invoker) (clock : Clock) (s : Stage) (index : Nat) (step : Step) :
    StepEnds invoke s index step (clock (2 * index + 1)) (clock (2 * index + 2))
      (runStep invoke clock s.commands index s.context step) := by
  cases hb : Binding.bind step s.context with
  | error e =>
    obtain ⟨key, rfl⟩ := Binding.bind_missesOnly step s.context e hb
    simp only [runStep, hb]
    exact .unbound key hb
  | ok b =>
    simp only [runStep, hb]
    cases hr : invoke (s.commands ++ [b.command]) with
    | error e =>
      cases e with
      | launch program cause => exact .unlaunched b program cause hb hr
      | timeout secs => exact .timedOut b secs hb hr
    | ok o =>
      by_cases hc : o.exitCode = some 0
      · have hs : o.success = true := o.success_iff.mpr hc
        simp only [answered, hs, if_true, hc]
        exact .succeeded b o hb hr hc
      · have hs : o.success = false := by
          rw [Bool.eq_false_iff]
          exact fun h => hc (o.success_iff.mp h)
        simp only [answered, hs, Bool.false_eq_true, if_false]
        exact .failed b o hb hr hc

namespace StepEnds

variable {invoke : Invoker} {s : Stage} {index : Nat} {step : Step} {a z : Instant} {r : StepRun}

/-! ### Against the stage -/

theorem command_eq (h : StepEnds invoke s index step a z r) : r.command = s.command? step := by
  cases h with
  | unbound key hb => simp [Stage.command?, hb, neverStarted]
  | unlaunched b program cause hb => simp [Stage.command?, hb, neverStarted]
  | timedOut b secs hb => simp [Stage.command?, hb, failedAfterStart]
  | failed b o hb => simp [Stage.command?, hb, failedAfterStart]
  | succeeded b o hb => simp [Stage.command?, hb]

theorem result_of_yield (h : StepEnds invoke s index step a z r) {y : StepYield}
    (hy : s.yield? invoke step = some y) : r.result = .ok y := by
  obtain ⟨b, o, hb, ho, hc, rfl⟩ := Stage.exists_bound_of_yield hy
  cases h with
  | unbound key hb' => simp [hb] at hb'
  | unlaunched b' program cause hb' hr => simp_all
  | timedOut b' secs hb' hr => simp_all
  | failed b' o' hb' hr hc' => simp_all
  | succeeded b' o' hb' hr => simp_all

theorem result_of_no_yield (h : StepEnds invoke s index step a z r)
    (hy : s.yield? invoke step = none) : ∃ e, r.result = .error e := by
  cases h with
  | unbound key => exact ⟨_, rfl⟩
  | unlaunched b program cause => exact ⟨_, rfl⟩
  | timedOut b secs => exact ⟨_, rfl⟩
  | failed b o => exact ⟨_, rfl⟩
  | succeeded b o hb hr hc => simp [Stage.yield?, hb, hr, hc] at hy

/-! ### States and log entries -/

theorem state_of_ok (h : StepEnds invoke s index step a z r) {y : StepYield}
    (hy : r.result = .ok y) : r.state = .succeeded 0 a z := by
  cases h with
  | unbound key => cases hy
  | unlaunched b program cause => cases hy
  | timedOut b secs => cases hy
  | failed b o => cases hy
  | succeeded b o => rfl

theorem state_of_error (h : StepEnds invoke s index step a z r) {e : StepError}
    (he : r.result = .error e) :
    (∃ code, r.state = .failed e.message code a z) ∨ ∃ secs, r.state = .timedOut secs a z := by
  cases h with
  | unbound key =>
    cases he
    exact Or.inl ⟨none, rfl⟩
  | unlaunched b program cause =>
    cases he
    exact Or.inl ⟨none, rfl⟩
  | timedOut b secs => exact Or.inr ⟨secs, rfl⟩
  | failed b o =>
    cases he
    exact Or.inl ⟨o.exitCode, rfl⟩
  | succeeded b o => cases he

theorem entry_agrees (h : StepEnds invoke s index step a z r) {x : RunResult}
    (hx : r.entry = some x) :
    x.index = index ∧ x.stepId = step.id ∧ x.state = r.state ∧
      (x.exitCode = some 0 ↔ ∃ code b c, x.state = .succeeded code b c) := by
  cases h with
  | unbound key => cases hx
  | unlaunched b program cause => cases hx
  | timedOut b secs =>
    cases hx
    exact ⟨rfl, rfl, rfl, by simp [logEntry]⟩
  | failed b o hb hr hc =>
    cases hx
    exact ⟨rfl, rfl, rfl, by simp [logEntry, hc]⟩
  | succeeded b o =>
    cases hx
    exact ⟨rfl, rfl, rfl, by simp [logEntry]⟩

theorem entry_of_ok (h : StepEnds invoke s index step a z r) {y : StepYield}
    (hy : r.result = .ok y) : r.entry.isSome = true := by
  cases h with
  | unbound key => cases hy
  | unlaunched b program cause => cases hy
  | timedOut b secs => cases hy
  | failed b o => cases hy
  | succeeded b o => rfl

/-- A step that fails has a log entry exactly if its process was started. -/
theorem entry_of_error (h : StepEnds invoke s index step a z r) {e : StepError}
    (he : r.result = .error e) : r.entry.isSome = e.processStarted := by
  cases h with
  | unbound key =>
    cases he
    rfl
  | unlaunched b program cause =>
    cases he
    rfl
  | timedOut b secs =>
    cases he
    exact (uploadOr_processStarted b.publish rfl).symm
  | failed b o =>
    cases he
    exact (uploadOr_processStarted b.publish (exitError_processStarted o.exitCode)).symm
  | succeeded b o => cases he

/-! ### Events -/

theorem events_of_ok (h : StepEnds invoke s index step a z r) {y : StepYield}
    (hy : r.result = .ok y) :
    ∃ b x, Binding.bind step s.context = .ok b ∧ b.publish = y.publish ∧ r.entry = some x ∧
      r.events = [startedEvent s index step b, .stepSucceeded index step.id x.stdout] := by
  cases h with
  | unbound key => cases hy
  | unlaunched b program cause => cases hy
  | timedOut b secs => cases hy
  | failed b o => cases hy
  | succeeded b o hb =>
    cases hy
    exact ⟨b, _, hb, rfl, rfl, rfl⟩

theorem events_of_error (h : StepEnds invoke s index step a z r) {e : StepError}
    (he : r.result = .error e) :
    ∃ shown, r.events = (match Binding.bind step s.context with
      | .error _ => []
      | .ok b => [startedEvent s index step b]) ++ [.stepFailed index step.id e.message shown] := by
  cases h with
  | unbound key hb =>
    cases he
    exact ⟨"", by simp only [hb, neverStarted]⟩
  | unlaunched b program cause hb =>
    cases he
    exact ⟨"", by simp only [hb, neverStarted]⟩
  | timedOut b secs hb =>
    cases he
    exact ⟨"", by simp only [hb, failedAfterStart, List.cons_append, List.nil_append]⟩
  | failed b o hb =>
    cases he
    exact ⟨_, by simp only [hb, failedAfterStart, List.cons_append, List.nil_append]; rfl⟩
  | succeeded b o => cases he

end StepEnds

end PipelineRunner
