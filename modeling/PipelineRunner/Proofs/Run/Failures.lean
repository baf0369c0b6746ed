import PipelineRunner.History.Summary
import PipelineRunner.Proofs.Run.Events
import PipelineRunner.Proofs.Trigger

/-!
# How a failure is classified and reported

A step fails with one error, which is told by how its binding and its process went and by whether it
publishes; `Stage.FailsWith` lists the ways. The step state, the log, the event and the summary all
report that error, whatever it is: each is read off the exits of the step once (`StepEnds`), and the
trail carries it to the run.
-/

namespace PipelineRunner

/-! ### Causes -/

/-- What is wrong with a process that was started: it outlived its deadline, it exited with a code
other than 0, or a signal ended it. -/
inductive ProcessFails : Except InvokeError ProcessOutput → StepError → Prop
  | timedOut (secs : Nat) : ProcessFails (.error (.timeout secs)) (.timeout secs)
  | exited (o : ProcessOutput) (code : Int) :
    o.exitCode = some code → code ≠ 0 → ProcessFails (.ok o) (.failure code)
  | killed (o : ProcessOutput) : o.exitCode = none → ProcessFails (.ok o) .killed

namespace Stage

def reply? (invoke : Invoker) (s : Stage) (step : Step) :
    Option (Except InvokeError ProcessOutput) :=
  match Binding.bind step s.context with
  | .error _ => none
  | .ok b => some (invoke (s.commands ++ [b.command]))

/-- A step publishes a file under a key: both are filled from the bound environment and then the
context. -/
def PublishesAs (s : Stage) (step : Step) (file key : String) : Prop :=
  ∃ b a, Binding.bind step s.context = .ok b ∧ step.publishes = some a ∧
    Binding.fill (Binding.lookupIn b.command.env s.context) a.file = .ok file ∧
    Binding.fill (Binding.lookupIn b.command.env s.context) a.key = .ok key

/-- The error with which a step fails. For a step that publishes, what is wrong with its process is
the reason of a failed upload; a process that was not started is reported as it is. -/
inductive FailsWith (invoke : Invoker) (s : Stage) (step : Step) : StepError → Prop
  | unbound (key : String) :
    Binding.bind step s.context = .error (.missingVariable key) →
    FailsWith invoke s step (.missingVariable key)
  | unlaunched (program cause : String) :
    s.reply? invoke step = some (.error (.launch program cause)) →
    FailsWith invoke s step (.launch program cause)
  | process (reply : Except InvokeError ProcessOutput) (base : StepError) :
    s.reply? invoke step = some reply → ProcessFails reply base → step.publishes = none →
    FailsWith invoke s step base
  | upload (reply : Except InvokeError ProcessOutput) (base : StepError) (file key : String) :
    s.reply? invoke step = some reply → ProcessFails reply base → s.PublishesAs step file key →
    FailsWith invoke s step (.upload file key base.message)

/-- What the report of a failed step shows: the error output of its process with the secrets
redacted, or the output if that is blank. There is nothing to show unless the process ended. -/
def shownOf (s : Stage) (invoke : Invoker) (step : Step) : String :=
  match s.reply? invoke step with
  | some (.ok o) =>
    if Text.isBlankText (s.context.redact o.stderr) then s.context.redact o.stdout
    else s.context.redact o.stderr
  | _ => ""

/-- `step` is the first of the steps that does not succeed, and it is what `x` says. -/
structure FailsAt (invoke : Invoker) (s : Stage) (steps : List Step) (x : StepFailure)
    (step : Step) : Prop where
  halts : s.HaltsAt invoke steps x.index
  getElem? : steps[x.index]? = some step
  stepId : step.id = x.stepId
  error : (s.reach invoke steps x.index).FailsWith invoke step x.error

end Stage

section
variable {secs : Nat} {program cause : String} {o : ProcessOutput} {base : StepError}

theorem processFails_timeout_iff :
    ProcessFails (.error (.timeout secs)) base ↔ .timeout secs = base := by
  constructor
  · rintro ⟨⟩
    rfl
  · rintro rfl
    exact .timedOut secs

theorem not_processFails_launch : ¬ ProcessFails (.error (.launch program cause)) base := by
  rintro ⟨⟩

theorem processFails_ok_iff :
    ProcessFails (.ok o) base ↔ o.exitCode ≠ some 0 ∧ exitError o.exitCode = base := by
  constructor
  · intro h
    cases h with
    | exited _ code hc hne =>
      rw [hc]
      exact ⟨fun h => hne (Option.some.inj h), rfl⟩
    | killed _ hc =>
      rw [hc]
      exact ⟨nofun, rfl⟩
  · rintro ⟨hne, rfl⟩
    cases hc : o.exitCode with
    | none => exact .killed o hc
    | some code =>
      refine .exited o code hc ?_
      rintro rfl
      exact hne hc

end

namespace Stage

section
variable {invoke : Invoker} {s : Stage} {steps : List Step} {step : Step} {b : BoundStep}
  {e : StepError}

theorem reply?_of_bound (h : Binding.bind step s.context = .ok b) :
    s.reply? invoke step = some (invoke (s.commands ++ [b.command])) := by
  simp only [reply?, h]

theorem reply?_of_unbound (h : Binding.bind step s.context = .error e) :
    s.reply? invoke step = none := by
  simp only [reply?, h]

theorem publishesAs_iff {file key : String} (hb : Binding.bind step s.context = .ok b) :
    s.PublishesAs step file key ↔ b.publish = some ⟨file, key⟩ := by
  obtain ⟨env, command, -, -, -, hpublish, -, henv, -⟩ := Binding.bind_eq_ok hb
  rw [← henv] at hpublish
  constructor
  · rintro ⟨b', a, hb', ha, hfile, hkey⟩
    cases hb.symm.trans hb'
    rw [ha] at hpublish
    obtain ⟨file', key', hfile', hkey', hboth⟩ := Binding.bindArtifact_some hpublish
    cases hfile.symm.trans hfile'
    cases hkey.symm.trans hkey'
    exact hboth
  · intro hsome
    have hdeclared := Binding.bind_publish_isSome hb
    rw [hsome] at hdeclared
    obtain ⟨a, ha⟩ := Option.isSome_iff_exists.mp hdeclared.symm
    rw [ha] at hpublish
    obtain ⟨file', key', hfile, hkey, hboth⟩ := Binding.bindArtifact_some hpublish
    cases hsome.symm.trans hboth
    exact ⟨b, a, hb, ha, hfile, hkey⟩

theorem failsWith_iff_of_unbound {key : String}
    (hb : Binding.bind step s.context = .error (.missingVariable key)) :
    s.FailsWith invoke step e ↔ .missingVariable key = e := by
  have hreply : s.reply? invoke step = none := reply?_of_unbound hb
  constructor
  · intro h
    cases h with
    | unbound key' hb' =>
      cases hb.symm.trans hb'
      rfl
    | unlaunched program cause h => cases hreply.symm.trans h
    | process reply base h => cases hreply.symm.trans h
    | upload reply base file key h => cases hreply.symm.trans h
  · rintro rfl
    exact .unbound key hb

theorem failsWith_iff_of_bound (hb : Binding.bind step s.context = .ok b) :
    s.FailsWith invoke step e ↔
      (∃ program cause, invoke (s.commands ++ [b.command]) = .error (.launch program cause) ∧
        .launch program cause = e) ∨
      ∃ base, ProcessFails (invoke (s.commands ++ [b.command])) base ∧
        uploadOr b.publish base = e := by
  have hreply : s.reply? invoke step = some (invoke (s.commands ++ [b.command])) :=
    reply?_of_bound hb
  have hdeclared := Binding.bind_publish_isSome hb
  constructor
  · intro h
    cases h with
    | unbound key hb' => cases hb.symm.trans hb'
    | unlaunched program cause h => exact Or.inl ⟨program, cause, Option.some.inj (hreply ▸ h), rfl⟩
    | process reply base h hbase hnone =>
      cases hreply.symm.trans h
      rw [hnone, Option.isSome_none, Option.isSome_eq_false_iff, Option.isNone_iff_eq_none]
        at hdeclared
      refine Or.inr ⟨e, hbase, ?_⟩
      rw [hdeclared]
      rfl
    | upload reply base file key h hbase hpublishes =>
      cases hreply.symm.trans h
      refine Or.inr ⟨base, hbase, ?_⟩
      rw [(publishesAs_iff hb).mp hpublishes]
      rfl
  · rintro (⟨program, cause, h, rfl⟩ | ⟨base, hbase, rfl⟩)
    · exact .unlaunched program cause (hreply.trans (congrArg some h))
    · cases hp : b.publish with
      | none =>
        rw [hp] at hdeclared
        exact .process _ base hreply hbase (Option.not_isSome_iff_eq_none.mp (by simp [← hdeclared]))
      | some x => exact .upload _ base x.file x.key hreply hbase ((publishesAs_iff hb).mpr hp)

end

end Stage

/-! ### The exits of a step that fails -/

def RunEvent.isStepFailed : RunEvent → Bool
  | .stepFailed .. => true
  | _ => false

namespace StepEnds

variable {invoke : Invoker} {s : Stage} {index : Nat} {step : Step} {a z : Instant} {r : StepRun}
  {e : StepError}

/-- The error of a step that fails is the one that its cause calls for. -/
theorem result_eq_error_iff (h : StepEnds invoke s index step a z r) :
    r.result = .error e ↔ s.FailsWith invoke step e := by
  cases h with
  | unbound key hb => simp [Stage.failsWith_iff_of_unbound hb, neverStarted]
  | unlaunched b program cause hb hreply =>
    simp [Stage.failsWith_iff_of_bound hb, hreply, not_processFails_launch, neverStarted,
      and_assoc]
  | timedOut b secs hb hreply =>
    simp [Stage.failsWith_iff_of_bound hb, hreply, processFails_timeout_iff, failedAfterStart]
  | failed b o hb hreply hcode =>
    simp [Stage.failsWith_iff_of_bound hb, hreply, processFails_ok_iff, hcode, failedAfterStart]
  | succeeded b o hb hreply hcode =>
    simp [Stage.failsWith_iff_of_bound hb, hreply, processFails_ok_iff, hcode]

theorem reports_of_error (h : StepEnds invoke s index step a z r) (he : r.result = .error e) :
    (r.state = match s.reply? invoke step with
      | some (.error (.timeout secs)) => .timedOut secs a z
      | _ => .failed e.message (r.entry.bind (·.exitCode)) a z) ∧
      r.events.filter RunEvent.isStepFailed =
        [.stepFailed index step.id e.message (s.shownOf invoke step)] := by
  cases h with
  | unbound key hb =>
    cases he
    rw [Stage.shownOf, Stage.reply?_of_unbound hb]
    exact ⟨rfl, rfl⟩
  | unlaunched b program cause hb hreply =>
    cases he
    rw [Stage.shownOf, Stage.reply?_of_bound hb, hreply]
    exact ⟨rfl, rfl⟩
  | timedOut b secs hb hreply =>
    cases he
    rw [Stage.shownOf, Stage.reply?_of_bound hb, hreply]
    exact ⟨rfl, rfl⟩
  | failed b o hb hreply =>
    cases he
    rw [Stage.shownOf, Stage.reply?_of_bound hb, hreply]
    exact ⟨rfl, rfl⟩
  | succeeded b o => cases he

theorem failures_of_ok (h : StepEnds invoke s index step a z r) {y : StepYield}
    (hy : r.result = .ok y) : r.events.filter RunEvent.isStepFailed = [] := by
  obtain ⟨b, x, -, -, -, hevents⟩ := h.events_of_ok hy
  rw [hevents]
  rfl

end StepEnds

/-! ### Along a trail -/

theorem filter_skippedEvents (k : Nat) (steps : List Step) :
    (skippedEvents k steps).filter RunEvent.isStepFailed = [] := by
  induction steps generalizing k with
  | nil => rfl
  | cons step rest ih => exact ih (k + 1)

theorem filter_publishedEvents (step : Step) (l : List Artifact) :
    (l.map (publishedEvent step)).filter RunEvent.isStepFailed = [] := by
  rw [List.filter_eq_nil_iff]
  intro e he
  obtain ⟨a, -, rfl⟩ := List.mem_map.mp he
  exact Bool.false_ne_true

namespace Stage

variable {invoke : Invoker} {clock : Clock} {s : Stage} {i : Nat} {state : RunState} {step : Step}
  {steps : List Step} {r : StepRun} {e : StepError}

theorem find?_trail_entries (hi : i ≤ s.halt invoke steps)
    (hr : s.runAt? invoke clock 0 steps i = some r) :
    (s.trail invoke clock 0 state steps).entries.find? (fun x => x.index == i) = r.entry := by
  cases hfind : (s.trail invoke clock 0 state steps).entries.find? (fun x => x.index == i) with
  | none =>
    cases hentry : r.entry with
    | none => rfl
    | some x =>
      obtain ⟨step, -, hends⟩ := exists_ends_of_run hr
      have hx : (s.trail invoke clock 0 state steps).entries[i]? = some x := by
        rw [trail_entries, if_pos hi, hr, Option.bind_some, hentry]
      have hne := List.find?_eq_none.mp hfind x (List.mem_of_getElem? hx)
      rw [(hends.entry_agrees hentry).1, Nat.zero_add, beq_self_eq_true] at hne
      exact absurd rfl hne
  | some x =>
    obtain ⟨j, r', -, hr', hentry⟩ := exists_run_of_mem_entries (List.mem_of_find?_eq_some hfind)
    obtain ⟨step, -, hends⟩ := exists_ends_of_run hr'
    have hindex : x.index = i := by simpa using List.find?_some hfind
    rw [(hends.entry_agrees hentry).1, Nat.zero_add] at hindex
    rw [hindex, hr, Option.some.injEq] at hr'
    rw [hr', hentry]

theorem FailsAt.exists_run {x : StepFailure} (hx : s.FailsAt invoke steps x step) (clock : Clock) :
    ∃ r, s.runAt? invoke clock 0 steps x.index = some r ∧ r.result = .error x.error ∧
      StepEnds invoke (s.reach invoke steps x.index) x.index step (clock (2 * x.index + 1))
        (clock (2 * x.index + 2)) r := by
  have hends := stepRun_ends invoke clock (s.reach invoke steps x.index) x.index step
  refine ⟨_, ?_, hends.result_eq_error_iff.mpr hx.error, hends⟩
  rw [runAt?, hx.getElem?, Option.map_some, Nat.zero_add]

theorem failures_before : ((List.range (s.halt invoke steps)).flatMap
    (s.eventsAt invoke clock 0 steps)).filter RunEvent.isStepFailed = [] := by
  rw [List.filter_flatMap, List.flatMap_eq_nil_iff]
  intro j hj
  obtain ⟨step, y, r, hstep, -, hr, hok, hends⟩ := exists_run_of_lt clock 0 (List.mem_range.mp hj)
  rw [eventsAt_of_run hstep hr, List.filter_append, hends.failures_of_ok hok,
    filter_publishedEvents, List.append_nil]

theorem FailsAt.failures_trail {x : StepFailure} (hx : s.FailsAt invoke steps x step) :
    (s.trail invoke clock 0 state steps).events.filter RunEvent.isStepFailed =
      [.stepFailed x.index x.stepId x.error.message
        ((s.reach invoke steps x.index).shownOf invoke step)] := by
  obtain ⟨r, hr, he, hends⟩ := hx.exists_run clock
  rw [trail_events, List.filter_append, failures_before, List.nil_append, tailEvents,
    List.filter_append, ← hx.halts.eq_halt, eventsAt_of_run hx.getElem? hr, List.filter_append,
    filter_publishedEvents, filter_skippedEvents, (hends.reports_of_error he).2, List.append_nil,
    List.append_nil, hx.stepId]

end Stage

/-! ### Whole runs -/

/-- Every report of the failure `x` of a run is of the same error. `step` is the step that failed,
and `s` is the stage before it. -/
structure Execution.Reports (run : Execution) (invoke : Invoker) (s : Stage) (step : Step)
    (x : StepFailure) : Prop where
  timedOut_iff : ∀ secs, (∃ a z, run.outcome.stepStates[x.index]? = some (.timedOut secs a z)) ↔
    s.reply? invoke step = some (.error (.timeout secs))
  failed : (∀ secs, s.reply? invoke step ≠ some (.error (.timeout secs))) →
    ∃ a z, run.outcome.stepStates[x.index]? = some (.failed x.error.message
      ((run.outcome.runLog.results.find? fun r => r.index == x.index).bind (·.exitCode)) a z)
  event : run.events.filter RunEvent.isStepFailed =
    [.stepFailed x.index x.stepId x.error.message (s.shownOf invoke step)]
  summary : (Summary.ofOutcome run.outcome).error = some x.error.message

section
variable {invoke : Invoker} {clock : Clock} {id : Uuid} {p : Pipeline} {context : Context}
  {x : StepFailure} {step : Step}

theorem execute_failure_iff :
    (execute invoke clock id p context).outcome.failure = some x ↔
      ∃ step, (Stage.initial context).FailsAt invoke p.steps x step := by
  let s := Stage.initial context
  constructor
  · intro h
    cases hstep : p.steps[s.halt invoke p.steps]? with
    | none =>
      rw [execute_failure_of_none clock id hstep] at h
      cases h
    | some step =>
      obtain ⟨r, e, hr, he, hx⟩ := execute_failure_of_some clock id hstep
      rw [hx, Option.some.injEq] at h
      subst h
      have hends := Stage.ends_of_run hstep hr
      exact ⟨step, Stage.haltsAt_halt invoke s p.steps, hstep, rfl,
        hends.result_eq_error_iff.mp he⟩
  · rintro ⟨step, hx⟩
    have hstep := hx.getElem?
    obtain ⟨r, hr, he, -⟩ := hx.exists_run clock
    rw [hx.halts.eq_halt] at hstep hr
    obtain ⟨r', e, hr', he', hf⟩ := execute_failure_of_some clock id hstep
    cases hr.symm.trans hr'
    cases he.symm.trans he'
    rw [hf, ← hx.halts.eq_halt, hx.stepId]

theorem execute_reports (hx : (Stage.initial context).FailsAt invoke p.steps x step) :
    (execute invoke clock id p context).Reports invoke
      ((Stage.initial context).reach invoke p.steps x.index) step x := by
  let s := Stage.initial context
  obtain ⟨r, hr, he, hends⟩ := hx.exists_run clock
  have hle : x.index ≤ s.halt invoke p.steps := Nat.le_of_eq hx.halts.eq_halt
  have hfailure : (execute invoke clock id p context).outcome.failure = some x :=
    execute_failure_iff.mpr ⟨step, hx⟩
  have hlogged : (execute invoke clock id p context).outcome.runLog.results.find?
      (fun r => r.index == x.index) = r.entry := Stage.find?_trail_entries hle hr
  have hstate : (execute invoke clock id p context).outcome.stepStates[x.index]? =
      some r.state := by
    refine (Stage.trail_states (s := s) x.index).trans ?_
    rw [if_pos hle, hr, Option.map_some]
  rw [(hends.reports_of_error he).1] at hstate
  refine ⟨fun secs => ?_, fun hother => ?_, ?_, ?_⟩
  · rw [hstate]
    split
    · rename_i secs' hreply
      simp [hreply]
    · rename_i hother
      exact iff_of_false nofun (hother secs)
  · rw [hstate, hlogged]
    split
    · rename_i secs hreply
      exact absurd hreply (hother secs)
    · exact ⟨_, _, rfl⟩
  · let trail := p.trail invoke clock id context
    have hevents : (execute invoke clock id p context).events.filter RunEvent.isStepFailed =
        trail.events.filter RunEvent.isStepFailed := by
      show (trail.events ++ [_]).filter RunEvent.isStepFailed = _
      rw [List.filter_append]
      exact List.append_nil _
    rw [hevents, hx.failures_trail]
  · rw [Summary.ofOutcome, hfailure, Option.map_some]

end

/-- A run fails exactly if its event starts it and a step fails, and then with the error that the
cause calls for: that of the binding, of the launch, or of the process, which for a step that
publishes is the reason of a failed upload. The state of the step, the log, the one report of a
failed step among the events, and the summary agree with that error. -/
theorem run_reports_failure (invoke : Invoker) (clock : Clock) (id : Uuid) (p : Pipeline)
    (event : TriggerEvent) (context : Context) (x : StepFailure) :
    let run := run invoke clock id p event context
    let s := Stage.initial context
    (run.outcome.failure = some x ↔ p.Admits event ∧ ∃ step, s.FailsAt invoke p.steps x step) ∧
      ∀ step, run.outcome.failure = some x → p.steps[x.index]? = some step →
        run.Reports invoke (s.reach invoke p.steps x.index) step x := by
  intro run s
  by_cases hadmits : p.Admits event
  · have hrun : run = execute invoke clock id p context :=
      if_pos (Pipeline.isTriggeredBy_iff_admits.mpr hadmits)
    rw [hrun, execute_failure_iff]
    refine ⟨(and_iff_right hadmits).symm, ?_⟩
    rintro step ⟨step', hx⟩ hstep
    cases hx.getElem?.symm.trans hstep
    exact execute_reports hx
  · have hrun : run = notTriggeredRun clock id p event :=
      if_neg fun h => hadmits (Pipeline.isTriggeredBy_iff_admits.mp h)
    rw [hrun]
    refine ⟨iff_of_false nofun fun h => hadmits h.1, nofun⟩

def uploadStep : Step :=
  { Step.ofCommand "put" ["put"] with
    publishes := some ⟨"schema.json", "\x7b\x7bbranch\x7d\x7d/schema.json"⟩
    timeoutSecs := some 30 }

def uploading : Pipeline :=
  { name := "upload", trigger := none, declared := Dict.empty, secrets := []
    steps := [uploadStep] }

def uploadingContext : Context := uploading.initialContext Dict.empty (.push "main") []

def uploadTimedOut : Execution :=
  run (fun _ => .error (.timeout 30)) (fun n => ⟨n, 0⟩) .nil uploading (.push "main")
    uploadingContext

def uploadFailure : StepFailure :=
  ⟨0, "put", .upload "schema.json" "main/schema.json" "timed out after 30 seconds"⟩

/-- The step timed out, and the error is that of an upload. -/
theorem uploadTimedOut_reports :
    uploadTimedOut.outcome.failure = some uploadFailure ∧
      uploadTimedOut.Reports (fun _ => .error (.timeout 30)) (.initial uploadingContext) uploadStep
        uploadFailure ∧
      ∃ a z, uploadTimedOut.outcome.stepStates[0]? = some (.timedOut 30 a z) := by
  have hfailure : uploadTimedOut.outcome.failure = some uploadFailure := by decide +kernel
  have hreports := (run_reports_failure (fun _ => .error (.timeout 30)) (fun n => ⟨n, 0⟩) .nil
    uploading (.push "main") uploadingContext uploadFailure).2 uploadStep hfailure rfl
  exact ⟨hfailure, hreports, (hreports.timedOut_iff 30).mpr (by rfl)⟩

end PipelineRunner
