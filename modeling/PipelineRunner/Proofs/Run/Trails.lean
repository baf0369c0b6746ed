import PipelineRunner.Proofs.Run.Steps

/-!
# Trails, index by index

What a trail holds for the step at an index is what running that step from its stage produced. Each
field of a trail has one lemma, by induction over the steps; `Stage.trail_cons_of_some` and
`Stage.trail_cons_of_none` open the recursion once for all of them.
-/

namespace PipelineRunner

namespace Stage

def stepRun (invoke : Invoker) (clock : Clock) (s : Stage) (index : Nat) (step : Step) : StepRun :=
  runStep invoke clock s.commands index s.context step

def trail (invoke : Invoker) (clock : Clock) (s : Stage) (base : Nat) (state : RunState)
    (steps : List Step) : Trail :=
  runSteps invoke clock s.commands base s.context state steps

def runAt? (invoke : Invoker) (clock : Clock) (s : Stage) (base : Nat) (steps : List Step)
    (i : Nat) : Option StepRun :=
  steps[i]?.map ((s.reach invoke steps i).stepRun invoke clock (base + i))

def eventsAt (invoke : Invoker) (clock : Clock) (s : Stage) (base : Nat) (steps : List Step)
    (i : Nat) : List RunEvent :=
  match steps[i]? with
  | none => []
  | some step =>
    ((s.reach invoke steps i).stepRun invoke clock (base + i) step).events ++
      (s.artifactAt? invoke steps i).toList.map (publishedEvent step)

/-- The events from the step on at which the fold stops. -/
def tailEvents (invoke : Invoker) (clock : Clock) (s : Stage) (base : Nat) (steps : List Step) :
    List RunEvent :=
  let h := s.halt invoke steps
  s.eventsAt invoke clock base steps h ++ skippedEvents (base + h + 1) (steps.drop (h + 1))

section
variable {invoke : Invoker} {clock : Clock} {s : Stage} {base : Nat} {state : RunState}
  {step : Step} {rest steps : List Step} {y : StepYield}

theorem stepRun_ends (invoke : Invoker) (clock : Clock) (s : Stage) (index : Nat) (step : Step) :
    StepEnds invoke s index step (clock (2 * index + 1)) (clock (2 * index + 2))
      (s.stepRun invoke clock index step) :=
  runStep_ends invoke clock s index step

/-! ### Opening the recursion -/

theorem trail_nil : s.trail invoke clock base state [] = .done state := rfl

theorem nextContext_eq (h : s.yield? invoke step = some y) :
    nextContext s.context step y = (s.next invoke step).context := by
  simp only [nextContext, next, h]
  cases step.capture with
  | none => rfl
  | some name => rfl

theorem trail_cons_of_some (h : s.yield? invoke step = some y) :
    s.trail invoke clock base state (step :: rest) =
      .after s.context step (s.stepRun invoke clock base step) y
        ((s.next invoke step).trail invoke clock (base + 1) state.stepSucceeded rest) := by
  have hr := (stepRun_ends invoke clock s base step).result_of_yield h
  have hc := (stepRun_ends invoke clock s base step).command_eq
  unfold stepRun at hr hc
  simp only [trail, runSteps, stepRun, hr, hc, nextContext_eq h]
  rfl

theorem trail_cons_of_none (clock : Clock) (base : Nat) (state : RunState) (rest : List Step)
    (h : s.yield? invoke step = none) :
    ∃ e, (s.stepRun invoke clock base step).result = .error e ∧
      s.trail invoke clock base state (step :: rest) =
        .halted (state.fail (clock (2 * base + 3)) base) base step rest
          (s.stepRun invoke clock base step) e := by
  obtain ⟨e, he⟩ := (stepRun_ends invoke clock s base step).result_of_no_yield h
  refine ⟨e, he, ?_⟩
  unfold stepRun at he
  simp only [trail, runSteps, stepRun, he]

/-! ### Shifting indices -/

@[simp] theorem runAt?_nil (i : Nat) : s.runAt? invoke clock base [] i = none := rfl

@[simp] theorem runAt?_cons_zero :
    s.runAt? invoke clock base (step :: rest) 0 = some (s.stepRun invoke clock base step) := by
  simp [runAt?]

@[simp] theorem runAt?_cons_succ (i : Nat) :
    s.runAt? invoke clock base (step :: rest) (i + 1) =
      (s.next invoke step).runAt? invoke clock (base + 1) rest i := by
  have hb : base + (i + 1) = base + 1 + i := by omega
  simp [runAt?, hb]

@[simp] theorem eventsAt_cons_zero :
    s.eventsAt invoke clock base (step :: rest) 0 =
      (s.stepRun invoke clock base step).events ++
        ((s.yield? invoke step).bind (·.publish)).toList.map (publishedEvent step) := by
  simp [eventsAt]

@[simp] theorem eventsAt_cons_succ (i : Nat) :
    s.eventsAt invoke clock base (step :: rest) (i + 1) =
      (s.next invoke step).eventsAt invoke clock (base + 1) rest i := by
  have hb : base + (i + 1) = base + 1 + i := by omega
  simp [eventsAt, hb]

/-! ### The steps a trail reaches -/

theorem exists_run_of_lt (clock : Clock) (base : Nat) {i : Nat} (hi : i < s.halt invoke steps) :
    ∃ step y r, steps[i]? = some step ∧ s.yieldAt? invoke steps i = some y ∧
      s.runAt? invoke clock base steps i = some r ∧ r.result = .ok y ∧
      StepEnds invoke (s.reach invoke steps i) (base + i) step (clock (2 * (base + i) + 1))
        (clock (2 * (base + i) + 2)) r := by
  obtain ⟨y, hy⟩ := Option.isSome_iff_exists.mp ((haltsAt_halt invoke s steps).succeeds i hi)
  obtain ⟨step, hstep, hyield⟩ := Option.bind_eq_some_iff.mp hy
  have hends := stepRun_ends invoke clock (s.reach invoke steps i) (base + i) step
  exact ⟨step, y, _, hstep, hy, by rw [runAt?, hstep, Option.map_some],
    hends.result_of_yield hyield, hends⟩

theorem ends_of_run {i : Nat} {r : StepRun} (hstep : steps[i]? = some step)
    (h : s.runAt? invoke clock base steps i = some r) :
    StepEnds invoke (s.reach invoke steps i) (base + i) step (clock (2 * (base + i) + 1))
      (clock (2 * (base + i) + 2)) r := by
  rw [runAt?, hstep, Option.map_some, Option.some.injEq] at h
  rw [← h]
  exact stepRun_ends invoke clock _ (base + i) step

theorem exists_ends_of_run {i : Nat} {r : StepRun}
    (h : s.runAt? invoke clock base steps i = some r) :
    ∃ step, steps[i]? = some step ∧
      StepEnds invoke (s.reach invoke steps i) (base + i) step (clock (2 * (base + i) + 1))
        (clock (2 * (base + i) + 2)) r := by
  obtain ⟨step, hstep, -⟩ := Option.map_eq_some_iff.mp h
  exact ⟨step, hstep, ends_of_run hstep h⟩

/-! ### The fields of a trail -/

theorem trail_commands (i : Nat) :
    (s.trail invoke clock base state steps).commands[i]? =
      if i ≤ s.halt invoke steps then s.commandAt? invoke steps i else none := by
  induction steps generalizing s base state i with
  | nil => simp [trail_nil, Trail.done]
  | cons step rest ih =>
    have hc := (stepRun_ends invoke clock s base step).command_eq
    cases hy : s.yield? invoke step with
    | none =>
      obtain ⟨e, -, ht⟩ := trail_cons_of_none clock base state rest hy
      rw [ht, halt_cons_of_none hy]
      cases i with
      | zero => cases hs : s.command? step <;> simp [Trail.halted, hc, hs]
      | succ i => cases hs : s.command? step <;> simp [Trail.halted, hc, hs]
    | some y =>
      obtain ⟨c, hs⟩ := command?_isSome_of_yield hy
      rw [trail_cons_of_some hy, halt_cons_of_some hy]
      cases i with
      | zero => simp [Trail.after, hc, hs]
      | succ i => simp [Trail.after, hc, hs, ih]

theorem trail_states (i : Nat) :
    (s.trail invoke clock base state steps).states[i]? =
      if i ≤ s.halt invoke steps then (s.runAt? invoke clock base steps i).map (·.state)
      else steps[i]?.map fun _ => .pending := by
  induction steps generalizing s base state i with
  | nil => simp [trail_nil, Trail.done]
  | cons step rest ih =>
    cases hy : s.yield? invoke step with
    | none =>
      obtain ⟨e, -, ht⟩ := trail_cons_of_none clock base state rest hy
      rw [ht, halt_cons_of_none hy]
      cases i with
      | zero => simp [Trail.halted]
      | succ i =>
        rw [if_neg (by omega)]
        simp only [Trail.halted, List.getElem?_cons_succ, List.getElem?_map]
    | some y =>
      rw [trail_cons_of_some hy, halt_cons_of_some hy]
      cases i with
      | zero => simp [Trail.after]
      | succ i => simp [Trail.after, ih]

theorem trail_entries (i : Nat) :
    (s.trail invoke clock base state steps).entries[i]? =
      if i ≤ s.halt invoke steps then (s.runAt? invoke clock base steps i).bind (·.entry)
      else none := by
  induction steps generalizing s base state i with
  | nil => simp [trail_nil, Trail.done]
  | cons step rest ih =>
    cases hy : s.yield? invoke step with
    | none =>
      obtain ⟨e, -, ht⟩ := trail_cons_of_none clock base state rest hy
      rw [ht, halt_cons_of_none hy]
      cases i with
      | zero => cases hx : (s.stepRun invoke clock base step).entry <;> simp [Trail.halted, hx]
      | succ i => cases hx : (s.stepRun invoke clock base step).entry <;> simp [Trail.halted, hx]
    | some y =>
      have hends := stepRun_ends invoke clock s base step
      obtain ⟨x, hx⟩ := Option.isSome_iff_exists.mp (hends.entry_of_ok (hends.result_of_yield hy))
      rw [trail_cons_of_some hy, halt_cons_of_some hy]
      cases i with
      | zero => simp [Trail.after, hx]
      | succ i => simp [Trail.after, hx, ih]

theorem trail_artifacts :
    (s.trail invoke clock base state steps).artifacts =
      (List.range (s.halt invoke steps)).filterMap (s.artifactAt? invoke steps) := by
  induction steps generalizing s base state with
  | nil => rfl
  | cons step rest ih =>
    cases hy : s.yield? invoke step with
    | none =>
      obtain ⟨e, -, ht⟩ := trail_cons_of_none clock base state rest hy
      rw [ht, halt_cons_of_none hy]
      rfl
    | some y =>
      have hfirst : s.artifactAt? invoke (step :: rest) 0 = y.publish := by simp [hy]
      have hlater : s.artifactAt? invoke (step :: rest) ∘ Nat.succ =
          (s.next invoke step).artifactAt? invoke rest := funext artifactAt?_cons_succ
      have hrest : ((s.next invoke step).trail invoke clock (base + 1) state.stepSucceeded rest).artifacts = _ := ih
      rw [trail_cons_of_some hy, halt_cons_of_some hy, List.range_succ_eq_map,
        List.filterMap_cons, hfirst, List.filterMap_map, hlater, ← hrest]
      cases hp : y.publish with
      | none => simp only [Trail.after, hp, Option.toList_none, List.nil_append]
      | some a => simp only [Trail.after, hp, Option.toList_some, List.singleton_append]

theorem trail_captured :
    (s.trail invoke clock base state steps).captured =
      (List.range (s.halt invoke steps)).filterMap (s.captureAt? invoke steps) := by
  induction steps generalizing s base state with
  | nil => rfl
  | cons step rest ih =>
    cases hy : s.yield? invoke step with
    | none =>
      obtain ⟨e, -, ht⟩ := trail_cons_of_none clock base state rest hy
      rw [ht, halt_cons_of_none hy]
      rfl
    | some y =>
      have hfirst : s.captureAt? invoke (step :: rest) 0 =
          step.capture.map fun name => (name, s.context.redact (Text.trim y.stdout)) := by simp [hy]
      have hlater : s.captureAt? invoke (step :: rest) ∘ Nat.succ =
          (s.next invoke step).captureAt? invoke rest := funext captureAt?_cons_succ
      have hrest : ((s.next invoke step).trail invoke clock (base + 1) state.stepSucceeded rest).captured = _ := ih
      rw [trail_cons_of_some hy, halt_cons_of_some hy, List.range_succ_eq_map,
        List.filterMap_cons, hfirst, List.filterMap_map, hlater, ← hrest]
      cases hn : step.capture with
      | none => simp only [Trail.after, capturedBy, hn, Option.map_none, List.nil_append]
      | some name => simp only [Trail.after, capturedBy, hn, Option.map_some, List.singleton_append]

theorem trail_skipped :
    (s.trail invoke clock base state steps).skipped =
      (steps.drop (s.halt invoke steps + 1)).map (·.id) := by
  induction steps generalizing s base state with
  | nil => rfl
  | cons step rest ih =>
    cases hy : s.yield? invoke step with
    | none =>
      obtain ⟨e, -, ht⟩ := trail_cons_of_none clock base state rest hy
      rw [ht, halt_cons_of_none hy]
      simp [Trail.halted]
    | some y =>
      rw [trail_cons_of_some hy, halt_cons_of_some hy]
      simp [Trail.after, ih]

theorem trail_events :
    (s.trail invoke clock base state steps).events =
      (List.range (s.halt invoke steps)).flatMap (s.eventsAt invoke clock base steps) ++
        s.tailEvents invoke clock base steps := by
  induction steps generalizing s base state with
  | nil => rfl
  | cons step rest ih =>
    cases hy : s.yield? invoke step with
    | none =>
      obtain ⟨e, -, ht⟩ := trail_cons_of_none clock base state rest hy
      rw [ht]
      simp [Trail.halted, tailEvents, halt_cons_of_none hy, hy]
    | some y =>
      have hb : base + ((s.next invoke step).halt invoke rest + 1) =
          base + 1 + (s.next invoke step).halt invoke rest := by omega
      rw [trail_cons_of_some hy, halt_cons_of_some hy, List.range_succ_eq_map]
      simp [Trail.after, ih, hy, tailEvents, halt_cons_of_some hy, hb, List.flatMap_map]

theorem trail_failure_of_none (h : steps[s.halt invoke steps]? = none) :
    (s.trail invoke clock base state steps).failure = none := by
  induction steps generalizing s base state with
  | nil => rfl
  | cons step rest ih =>
    cases hy : s.yield? invoke step with
    | none => simp [halt_cons_of_none hy] at h
    | some y =>
      rw [trail_cons_of_some hy]
      rw [halt_cons_of_some hy, List.getElem?_cons_succ] at h
      exact ih h

theorem trail_failure_of_some (clock : Clock) (base : Nat) (state : RunState)
    (h : steps[s.halt invoke steps]? = some step) :
    ∃ r e, s.runAt? invoke clock base steps (s.halt invoke steps) = some r ∧ r.result = .error e ∧
      (s.trail invoke clock base state steps).failure =
        some ⟨base + s.halt invoke steps, step.id, e⟩ := by
  induction steps generalizing s base state with
  | nil => simp at h
  | cons x rest ih =>
    cases hy : s.yield? invoke x with
    | none =>
      obtain ⟨e, he, ht⟩ := trail_cons_of_none clock base state rest hy
      rw [halt_cons_of_none hy, List.getElem?_cons_zero, Option.some.injEq] at h
      subst h
      rw [ht, halt_cons_of_none hy]
      exact ⟨_, e, runAt?_cons_zero, he, rfl⟩
    | some y =>
      rw [halt_cons_of_some hy, List.getElem?_cons_succ] at h
      obtain ⟨r, e, hr, he, hf⟩ := ih (base + 1) state.stepSucceeded h
      have hb : base + ((s.next invoke x).halt invoke rest + 1) =
          base + 1 + (s.next invoke x).halt invoke rest := by omega
      rw [trail_cons_of_some hy, halt_cons_of_some hy, hb]
      exact ⟨r, e, by rw [runAt?_cons_succ, hr], he, hf⟩

/-! ### The state of the run -/

/-- The state after `n` more successful steps. -/
def counted (n : Nat) (state : RunState) : RunState :=
  { state with completedSteps := state.completedSteps + n }

@[simp] theorem counted_zero (state : RunState) : counted 0 state = state := rfl

@[simp] theorem counted_stepSucceeded (n : Nat) (state : RunState) :
    counted n state.stepSucceeded = counted (n + 1) state := by
  simp [counted, RunState.stepSucceeded, Nat.add_right_comm, Nat.add_assoc]

theorem trail_state_of_none (h : steps[s.halt invoke steps]? = none) :
    (s.trail invoke clock base state steps).state = counted (s.halt invoke steps) state := by
  induction steps generalizing s base state with
  | nil => rfl
  | cons step rest ih =>
    cases hy : s.yield? invoke step with
    | none => simp [halt_cons_of_none hy] at h
    | some y =>
      rw [halt_cons_of_some hy, List.getElem?_cons_succ] at h
      rw [trail_cons_of_some hy, halt_cons_of_some hy, ← counted_stepSucceeded]
      exact ih h

/-- The step at which the fold stops is not counted, and the failure is noted on the state that the
steps before it left. -/
theorem trail_state_of_some (h : steps[s.halt invoke steps]? = some step) :
    (s.trail invoke clock base state steps).state =
      (counted (s.halt invoke steps) state).fail
        (clock (2 * (base + s.halt invoke steps) + 3)) (base + s.halt invoke steps) := by
  induction steps generalizing s base state with
  | nil => simp at h
  | cons x rest ih =>
    cases hy : s.yield? invoke x with
    | none =>
      obtain ⟨e, -, ht⟩ := trail_cons_of_none clock base state rest hy
      rw [ht, halt_cons_of_none hy]
      rfl
    | some y =>
      have hb : base + ((s.next invoke x).halt invoke rest + 1) =
          base + 1 + (s.next invoke x).halt invoke rest := by omega
      rw [halt_cons_of_some hy, List.getElem?_cons_succ] at h
      rw [trail_cons_of_some hy, halt_cons_of_some hy, ← counted_stepSucceeded, hb]
      exact ih h

end

end Stage

abbrev Pipeline.trail (invoke : Invoker) (clock : Clock) (id : Uuid) (p : Pipeline)
    (context : Context) : Trail :=
  (Stage.initial context).trail invoke clock 0 (.started id (clock 0) p.steps.length) p.steps

end PipelineRunner
