import PipelineRunner.Proofs.Run.FinalState

/-!
# The events of a run

The grammar of a run's events: the start, a report of each step that succeeded, a report of the step
that halted the run and of those it kept from running, and the end. The reports agree with the log,
the artifacts, the failure and the skipped steps of the outcome.
-/

namespace PipelineRunner

/-! ### Reports -/

/-- The events of the step at `i` if it succeeded: it started, with its command line; it succeeded,
with the output its log entry has; and its artifact was published, if it publishes one. -/
def SuccessReport (invoke : Invoker) (s : Stage) (steps : List Step) (o : RunOutcome) (i : Nat)
    (events : List RunEvent) : Prop :=
  ∃ step line r, steps[i]? = some step ∧ s.lineAt? invoke steps i = some line ∧
    o.runLog.results[i]? = some r ∧ r.index = i ∧
    (s.artifactAt? invoke steps i).isSome = step.publishes.isSome ∧
    events = .stepStarted i step.id line :: .stepSucceeded i step.id r.stdout ::
      (s.artifactAt? invoke steps i).toList.map fun a => .artifactPublished step.id a.file a.key

/-- The events after the last success of a run that stops at `h`: none if the run is past its last
step. Otherwise the step at `h` started, unless it could not be bound, and failed, and the steps
after it were skipped. -/
def HaltReport (invoke : Invoker) (s : Stage) (steps : List Step) (o : RunOutcome) (h : Nat)
    (events : List RunEvent) : Prop :=
  match o.failure with
  | none => h = steps.length ∧ events = []
  | some x =>
    x.index = h ∧ steps[h]?.map (·.id) = some x.stepId ∧
      o.skipped = (steps.drop (h + 1)).map (·.id) ∧
      ∃ shown, events =
        ((s.lineAt? invoke steps h).toList.map fun line => .stepStarted h x.stepId line) ++
          .stepFailed h x.stepId x.error.message shown ::
            (o.skipped.zipIdx (h + 1)).map fun e => .stepSkipped e.2 e.1

theorem skippedEvents_eq (k : Nat) (steps : List Step) :
    skippedEvents k steps =
      ((steps.map (·.id)).zipIdx k).map fun e => .stepSkipped e.2 e.1 := by
  induction steps generalizing k with
  | nil => rfl
  | cons step rest ih =>
    rw [skippedEvents, ih, List.map_cons, List.zipIdx_cons, List.map_cons]

/-! ### Reports along a trail -/

namespace Stage

variable {invoke : Invoker} {clock : Clock} {s : Stage} {base i : Nat} {state : RunState}
  {step : Step} {steps : List Step} {r : StepRun}

theorem eventsAt_of_run (hstep : steps[i]? = some step)
    (hr : s.runAt? invoke clock base steps i = some r) :
    s.eventsAt invoke clock base steps i =
      r.events ++ (s.artifactAt? invoke steps i).toList.map (publishedEvent step) := by
  rw [runAt?, hstep, Option.map_some, Option.some.injEq] at hr
  simp only [eventsAt, hstep, hr]

theorem lineAt?_of_bound {b : BoundStep} (hstep : steps[i]? = some step)
    (hb : Binding.bind step (s.reach invoke steps i).context = .ok b) :
    s.lineAt? invoke steps i =
      some ((s.reach invoke steps i).context.redact b.command.displayLine) := by
  simp only [lineAt?, commandAt?, hstep, Option.bind_some, command?, hb, Option.map_some]

theorem lineAt?_of_unbound {e : StepError} (hstep : steps[i]? = some step)
    (hb : Binding.bind step (s.reach invoke steps i).context = .error e) :
    s.lineAt? invoke steps i = none := by
  simp only [lineAt?, commandAt?, hstep, Option.bind_some, command?, hb, Option.map_none]

theorem successReport_of_lt {o : RunOutcome} (hi : i < s.halt invoke steps)
    (ho : o.runLog.results = (s.trail invoke clock 0 state steps).entries) :
    SuccessReport invoke s steps o i (s.eventsAt invoke clock 0 steps i) := by
  obtain ⟨step, y, r, hstep, hy, hr, hok, hends⟩ := exists_run_of_lt clock 0 hi
  obtain ⟨b, x, hb, hp, hx, hevents⟩ := hends.events_of_ok hok
  rw [Nat.zero_add] at hends hevents
  refine ⟨step, _, x, hstep, lineAt?_of_bound hstep hb, ?_, (hends.entry_agrees hx).1, ?_, ?_⟩
  · rw [ho, trail_entries, if_pos (by omega), hr, Option.bind_some, hx]
  · rw [artifactAt?, hy, Option.bind_some, ← hp, Binding.bind_publish_isSome hb]
  · rw [eventsAt_of_run hstep hr, hevents]
    rfl

theorem haltReport_of_none {o : RunOutcome} (h : steps[s.halt invoke steps]? = none)
    (hf : o.failure = (s.trail invoke clock 0 state steps).failure) :
    HaltReport invoke s steps o (s.halt invoke steps) (s.tailEvents invoke clock 0 steps) := by
  have hlen := halt_eq_length h
  have hevents : s.eventsAt invoke clock 0 steps (s.halt invoke steps) = [] := by
    simp only [eventsAt, h]
  have hdrop : steps.drop (s.halt invoke steps + 1) = [] := List.drop_eq_nil_of_le (by omega)
  rw [trail_failure_of_none h] at hf
  unfold HaltReport
  rw [hf]
  refine ⟨hlen, ?_⟩
  rw [tailEvents, hevents, hdrop]
  rfl

theorem haltReport_of_some {o : RunOutcome} (h : steps[s.halt invoke steps]? = some step)
    (hf : o.failure = (s.trail invoke clock 0 state steps).failure)
    (hs : o.skipped = (s.trail invoke clock 0 state steps).skipped) :
    HaltReport invoke s steps o (s.halt invoke steps) (s.tailEvents invoke clock 0 steps) := by
  obtain ⟨r, e, hr, he, hfailure⟩ := trail_failure_of_some clock 0 state h
  have hends := ends_of_run h hr
  rw [Nat.zero_add] at hfailure hends
  obtain ⟨shown, hevents⟩ := hends.events_of_error he
  have hartifact : s.artifactAt? invoke steps (s.halt invoke steps) = none := by
    rw [artifactAt?, (haltsAt_halt invoke s steps).stops, Option.bind_none]
  rw [trail_skipped] at hs
  unfold HaltReport
  rw [hf, hfailure]
  refine ⟨rfl, by rw [h, Option.map_some], hs, shown, ?_⟩
  rw [tailEvents, eventsAt_of_run h hr, hartifact, hevents, skippedEvents_eq, hs, Nat.zero_add]
  cases hb : Binding.bind step (s.reach invoke steps (s.halt invoke steps)).context with
  | error e => simp [lineAt?_of_unbound h hb]
  | ok b => simp [lineAt?_of_bound h hb, startedEvent]

end Stage

/-! ### Whole runs -/

/-- The events of a run are its start, the reports of the steps that succeeded, in order, the report
of where it stopped, and its end, with the identifier and the final status of the outcome. A run
that its event does not trigger has one event only. -/
theorem execute_events (invoke : Invoker) (clock : Clock) (id : Uuid) (p : Pipeline)
    (event : TriggerEvent) (context : Context) :
    let s := Stage.initial context
    let x := execute invoke clock id p context
    (∃ h reports tail, s.HaltsAt invoke p.steps h ∧
      (∀ i < h, SuccessReport invoke s p.steps x.outcome i (reports i)) ∧
      HaltReport invoke s p.steps x.outcome h tail ∧
      x.outcome.artifacts = (List.range h).filterMap (s.artifactAt? invoke p.steps) ∧
      x.events =
        .pipelineStarted x.outcome.state.executionId p.name p.steps.length ::
          ((List.range h).flatMap reports ++ tail) ++
            [.pipelineCompleted x.outcome.state.executionId x.outcome.state.status]) ∧
      (run invoke clock id p event context).events =
        if p.isTriggeredBy event then x.events else [.notTriggered p.name event.branch] := by
  intro s x
  refine ⟨⟨s.halt invoke p.steps, s.eventsAt invoke clock 0 p.steps,
    s.tailEvents invoke clock 0 p.steps, Stage.haltsAt_halt invoke s p.steps,
    fun i hi => Stage.successReport_of_lt hi rfl, ?_, Stage.trail_artifacts (s := s), ?_⟩, ?_⟩
  · cases h : p.steps[s.halt invoke p.steps]? with
    | none => exact Stage.haltReport_of_none h rfl
    | some step => exact Stage.haltReport_of_some h rfl rfl
  · have hid : x.outcome.state.executionId = id := execute_executionId
    rw [hid, ← Stage.trail_events]
    rfl
  · unfold run
    split
    · rfl
    · rfl

end PipelineRunner
