import PipelineRunner.Proofs.Run.Trails

/-!
# Where a run ends

The counters, the step states, the log, the failure and the skipped steps of a finished run, as one
of two shapes: every step succeeded, or one step halted the run.
-/

namespace PipelineRunner

/-! ### The two shapes -/

namespace RunOutcome

structure Completed (o : RunOutcome) (p : Pipeline) : Prop where
  status : o.state.status = .completed
  failure : o.failure = none
  failedStep : o.state.failedStep = none
  completedSteps : o.state.completedSteps = p.steps.length
  totalSteps : o.state.totalSteps = p.steps.length
  skipped : o.skipped = []
  states_length : o.stepStates.length = p.steps.length
  succeeded : ∀ i < p.steps.length, ∃ a z, o.stepStates[i]? = some (.succeeded 0 a z)
  log : o.runLog.results.map (·.index) = List.range p.steps.length

/-- The step at the index of `x` halted the run of `p`: the steps before it succeeded, those after
it were never reached, and it is in the log if its process was started. -/
structure HaltedBy (o : RunOutcome) (p : Pipeline) (x : StepFailure) : Prop where
  index_lt : x.index < p.steps.length
  step : p.steps[x.index]?.map (·.id) = some x.stepId
  status : o.state.status = .failed
  failure : o.failure = some x
  failedStep : o.state.failedStep = some x.index
  completedSteps : o.state.completedSteps = x.index
  totalSteps : o.state.totalSteps = p.steps.length
  skipped : o.skipped = (p.steps.drop (x.index + 1)).map (·.id)
  states_length : o.stepStates.length = p.steps.length
  succeeded : ∀ i < x.index, ∃ a z, o.stepStates[i]? = some (.succeeded 0 a z)
  failed : ∃ st, o.stepStates[x.index]? = some st ∧
    ((∃ code a z, st = .failed x.error.message code a z) ∨ ∃ secs a z, st = .timedOut secs a z)
  pending : ∀ i < p.steps.length, x.index < i → o.stepStates[i]? = some .pending
  log : o.runLog.results.map (·.index) =
    List.range (if x.error.processStarted then x.index + 1 else x.index)

/-- Every log entry is about a step of `p` and has its final state, and its code is 0 exactly if
that state is success. -/
def LogAgrees (o : RunOutcome) (p : Pipeline) : Prop :=
  ∀ r ∈ o.runLog.results,
    o.stepStates[r.index]? = some r.state ∧ p.steps[r.index]?.map (·.id) = some r.stepId ∧
      (r.exitCode = some 0 ↔ ∃ code a z, r.state = .succeeded code a z)

variable {o : RunOutcome} {n : Nat}

theorem index_lt_of_log {r : RunResult}
    (hlog : o.runLog.results.map (·.index) = List.range n) (hr : r ∈ o.runLog.results) :
    r.index < n := by
  have hmem : r.index ∈ o.runLog.results.map (·.index) := List.mem_map.mpr ⟨r, hr, rfl⟩
  rw [hlog] at hmem
  exact List.mem_range.mp hmem

theorem length_of_log (hlog : o.runLog.results.map (·.index) = List.range n) :
    o.runLog.results.length = n := by
  have hlength := congrArg List.length hlog
  rwa [List.length_map, List.length_range] at hlength

theorem index_eq_of_log {i : Nat} {r : RunResult}
    (hlog : o.runLog.results.map (·.index) = List.range n) (h : o.runLog.results[i]? = some r) :
    r.index = i := by
  have hi : i < n := length_of_log hlog ▸ (List.getElem?_eq_some_iff.mp h).1
  have hindex := congrArg (·[i]?) hlog
  simp only [List.getElem?_map, h, Option.map_some, List.getElem?_range hi] at hindex
  exact Option.some.inj hindex

end RunOutcome

/-! ### States and entries along a trail -/

namespace Stage

variable {invoke : Invoker} {clock : Clock} {s : Stage} {base i : Nat} {state : RunState}
  {steps : List Step}

theorem trail_states_length :
    (s.trail invoke clock base state steps).states.length = steps.length := by
  induction steps generalizing s base state with
  | nil => rfl
  | cons step rest ih =>
    cases hy : s.yield? invoke step with
    | none =>
      obtain ⟨e, -, ht⟩ := trail_cons_of_none clock base state rest hy
      rw [ht]
      simp [Trail.halted]
    | some y =>
      rw [trail_cons_of_some hy]
      simp [Trail.after, ih]

theorem trail_states_of_lt (hi : i < s.halt invoke steps) :
    ∃ a z, (s.trail invoke clock base state steps).states[i]? = some (.succeeded 0 a z) := by
  obtain ⟨step, y, r, -, -, hr, hok, hends⟩ := exists_run_of_lt clock base hi
  exact ⟨_, _, by
    rw [trail_states, if_pos (by omega), hr, Option.map_some, hends.state_of_ok hok]⟩

theorem exists_run_of_mem_entries {x : RunResult}
    (h : x ∈ (s.trail invoke clock base state steps).entries) :
    ∃ i r, i ≤ s.halt invoke steps ∧ s.runAt? invoke clock base steps i = some r ∧
      r.entry = some x := by
  obtain ⟨i, hi⟩ := List.mem_iff_getElem?.mp h
  rw [trail_entries] at hi
  split at hi
  · rename_i hle
    obtain ⟨r, hr, hx⟩ := Option.bind_eq_some_iff.mp hi
    exact ⟨i, r, hle, hr, hx⟩
  · cases hi

theorem trail_entries_index :
    (s.trail invoke clock base state steps).entries.map (·.index) =
      List.range' base (s.trail invoke clock base state steps).entries.length := by
  induction steps generalizing s base state with
  | nil => rfl
  | cons step rest ih =>
    have hends := stepRun_ends invoke clock s base step
    cases hy : s.yield? invoke step with
    | none =>
      obtain ⟨e, -, ht⟩ := trail_cons_of_none clock base state rest hy
      rw [ht]
      cases hx : (s.stepRun invoke clock base step).entry with
      | none => simp [Trail.halted, hx]
      | some x => simp [Trail.halted, hx, (hends.entry_agrees hx).1]
    | some y =>
      obtain ⟨x, hx⟩ := Option.isSome_iff_exists.mp (hends.entry_of_ok (hends.result_of_yield hy))
      rw [trail_cons_of_some hy]
      simp [Trail.after, hx, ih, (hends.entry_agrees hx).1, List.range'_succ]

/-- Every step that succeeded has an entry, and the one at which the fold stops may have one. -/
theorem trail_entries_length :
    (s.trail invoke clock base state steps).entries.length = s.halt invoke steps +
      ((s.runAt? invoke clock base steps (s.halt invoke steps)).bind (·.entry)).toList.length := by
  induction steps generalizing s base state with
  | nil => rfl
  | cons step rest ih =>
    have hends := stepRun_ends invoke clock s base step
    cases hy : s.yield? invoke step with
    | none =>
      obtain ⟨e, -, ht⟩ := trail_cons_of_none clock base state rest hy
      rw [ht, halt_cons_of_none hy]
      simp [Trail.halted]
    | some y =>
      obtain ⟨x, hx⟩ := Option.isSome_iff_exists.mp (hends.entry_of_ok (hends.result_of_yield hy))
      rw [trail_cons_of_some hy, halt_cons_of_some hy]
      simp only [Trail.after, hx, ih, runAt?_cons_succ, Option.toList_some, List.length_append,
        List.length_cons, List.length_nil]
      omega

theorem trail_log_of_none (h : steps[s.halt invoke steps]? = none) :
    (s.trail invoke clock 0 state steps).entries.map (·.index) = List.range steps.length := by
  have hrun : s.runAt? invoke clock 0 steps (s.halt invoke steps) = none := by
    rw [runAt?, h, Option.map_none]
  rw [trail_entries_index, trail_entries_length, hrun, Option.bind_none, Option.toList_none,
    List.length_nil, Nat.add_zero, halt_eq_length h, List.range_eq_range']

theorem trail_log_of_some {r : StepRun} {e : StepError}
    (hr : s.runAt? invoke clock 0 steps (s.halt invoke steps) = some r)
    (he : r.result = .error e) :
    (s.trail invoke clock 0 state steps).entries.map (·.index) =
      List.range (if e.processStarted then s.halt invoke steps + 1 else s.halt invoke steps) := by
  obtain ⟨step, -, hends⟩ := exists_ends_of_run hr
  have hlen : (s.trail invoke clock 0 state steps).entries.length =
      if e.processStarted then s.halt invoke steps + 1 else s.halt invoke steps := by
    rw [trail_entries_length, hr, Option.bind_some, ← hends.entry_of_error he]
    cases r.entry with
    | none => rfl
    | some x => rfl
  rw [trail_entries_index, hlen, List.range_eq_range']

theorem trail_states_of_error {r : StepRun} {e : StepError}
    (hr : s.runAt? invoke clock base steps (s.halt invoke steps) = some r)
    (he : r.result = .error e) :
    ∃ st, (s.trail invoke clock base state steps).states[s.halt invoke steps]? = some st ∧
      ((∃ code a z, st = .failed e.message code a z) ∨ ∃ secs a z, st = .timedOut secs a z) := by
  obtain ⟨step, -, hends⟩ := exists_ends_of_run hr
  refine ⟨r.state, ?_, ?_⟩
  · rw [trail_states, if_pos (Nat.le_refl _), hr, Option.map_some]
  · rcases hends.state_of_error he with ⟨code, hs⟩ | ⟨secs, hs⟩
    · exact Or.inl ⟨code, _, _, hs⟩
    · exact Or.inr ⟨secs, _, _, hs⟩

theorem trail_states_of_gt (hi : i < steps.length) (hafter : s.halt invoke steps < i) :
    (s.trail invoke clock base state steps).states[i]? = some .pending := by
  rw [trail_states, if_neg (by omega), List.getElem?_eq_getElem hi, Option.map_some]

end Stage

/-! ### Whole runs -/

section
variable {invoke : Invoker} {clock : Clock} {id : Uuid} {p : Pipeline} {context : Context}

theorem execute_logAgrees : (execute invoke clock id p context).outcome.LogAgrees p := by
  intro x hx
  have hstates : (execute invoke clock id p context).outcome.stepStates =
      (p.trail invoke clock id context).states := rfl
  obtain ⟨i, r, hi, hr, hx⟩ := Stage.exists_run_of_mem_entries (s := .initial context) hx
  obtain ⟨step, hstep, hends⟩ := Stage.exists_ends_of_run hr
  obtain ⟨hindex, hid, hstate, hcode⟩ := hends.entry_agrees hx
  rw [Nat.zero_add] at hindex
  refine ⟨?_, ?_, hcode⟩
  · rw [hstates, hindex, Stage.trail_states, if_pos hi, hr, Option.map_some, hstate]
  · rw [hindex, hstep, Option.map_some, hid]

theorem execute_failure_of_none (clock : Clock) (id : Uuid)
    (h : p.steps[(Stage.initial context).halt invoke p.steps]? = none) :
    (execute invoke clock id p context).outcome.failure = none :=
  Stage.trail_failure_of_none (s := .initial context) h

theorem execute_failure_of_some {step : Step} (clock : Clock) (id : Uuid)
    (h : p.steps[(Stage.initial context).halt invoke p.steps]? = some step) :
    ∃ r e, (Stage.initial context).runAt? invoke clock 0 p.steps
        ((Stage.initial context).halt invoke p.steps) = some r ∧ r.result = .error e ∧
      (execute invoke clock id p context).outcome.failure =
        some ⟨(Stage.initial context).halt invoke p.steps, step.id, e⟩ := by
  obtain ⟨r, e, hr, he, hf⟩ := Stage.trail_failure_of_some clock 0
    (.started id (clock 0) p.steps.length) h
  rw [Nat.zero_add] at hf
  exact ⟨r, e, hr, he, hf⟩

theorem execute_state_of_none (clock : Clock) (id : Uuid)
    (h : p.steps[(Stage.initial context).halt invoke p.steps]? = none) :
    (execute invoke clock id p context).outcome.state =
      (Stage.counted p.steps.length (.started id (clock 0) p.steps.length)).complete
        (clock (2 * p.steps.length + 1)) := by
  let trail := p.trail invoke clock id context
  have hfailure : trail.failure = none := execute_failure_of_none clock id h
  have hstate : trail.state =
      Stage.counted p.steps.length (.started id (clock 0) p.steps.length) := by
    rw [Stage.trail_state_of_none h, Stage.halt_eq_length h]
  refine (if_pos ?_).trans (congrArg (RunState.complete · _) hstate)
  exact Option.isNone_iff_eq_none.mpr hfailure

theorem execute_state_of_some {step : Step} (clock : Clock) (id : Uuid)
    (h : p.steps[(Stage.initial context).halt invoke p.steps]? = some step) :
    (execute invoke clock id p context).outcome.state =
      (Stage.counted ((Stage.initial context).halt invoke p.steps)
        (.started id (clock 0) p.steps.length)).fail
          (clock (2 * (Stage.initial context).halt invoke p.steps + 3))
          ((Stage.initial context).halt invoke p.steps) := by
  let s := Stage.initial context
  let trail := p.trail invoke clock id context
  obtain ⟨r, e, -, -, hf⟩ := execute_failure_of_some clock id h
  have hfailure : trail.failure = some ⟨s.halt invoke p.steps, step.id, e⟩ := hf
  have hsome : ¬ trail.failure.isNone = true := by
    rw [hfailure]
    exact Bool.false_ne_true
  have hstate : trail.state =
      (Stage.counted (s.halt invoke p.steps) (.started id (clock 0) p.steps.length)).fail
        (clock (2 * s.halt invoke p.steps + 3)) (s.halt invoke p.steps) := by
    rw [Stage.trail_state_of_some h, Nat.zero_add]
  exact (if_neg hsome).trans hstate

theorem execute_executionId :
    (execute invoke clock id p context).outcome.state.executionId = id := by
  cases h : p.steps[(Stage.initial context).halt invoke p.steps]? with
  | none => rw [execute_state_of_none clock id h]; rfl
  | some step => rw [execute_state_of_some clock id h]; rfl

theorem execute_completedSteps :
    (execute invoke clock id p context).outcome.state.completedSteps =
      (Stage.initial context).halt invoke p.steps := by
  cases h : p.steps[(Stage.initial context).halt invoke p.steps]? with
  | none =>
    rw [execute_state_of_none clock id h, Stage.halt_eq_length h]
    exact Nat.zero_add _
  | some step =>
    rw [execute_state_of_some clock id h]
    exact Nat.zero_add _

theorem execute_completed
    (h : p.steps[(Stage.initial context).halt invoke p.steps]? = none) :
    (execute invoke clock id p context).outcome.Completed p := by
  let s := Stage.initial context
  have hlen : s.halt invoke p.steps = p.steps.length := Stage.halt_eq_length h
  have hskipped : (execute invoke clock id p context).outcome.skipped = [] := by
    refine (Stage.trail_skipped (s := s)).trans ?_
    rw [hlen, List.drop_eq_nil_of_le (by omega), List.map_nil]
  have hstate := execute_state_of_none clock id h
  exact
    { status := by rw [hstate]; rfl
      failure := execute_failure_of_none clock id h
      failedStep := by rw [hstate]; rfl
      completedSteps := execute_completedSteps.trans hlen
      totalSteps := by rw [hstate]; rfl
      skipped := hskipped
      states_length := Stage.trail_states_length (s := s)
      succeeded := fun i hi => Stage.trail_states_of_lt (s := s) (hlen.symm ▸ hi)
      log := Stage.trail_log_of_none (s := s) h }

theorem execute_halted {step : Step}
    (h : p.steps[(Stage.initial context).halt invoke p.steps]? = some step) :
    ∃ x, (execute invoke clock id p context).outcome.HaltedBy p x := by
  let s := Stage.initial context
  obtain ⟨r, e, hr, he, hfailure⟩ := execute_failure_of_some clock id h
  have hstate := execute_state_of_some clock id h
  exact ⟨⟨s.halt invoke p.steps, step.id, e⟩,
    { index_lt := (List.getElem?_eq_some_iff.mp h).1
      step := by rw [h, Option.map_some]
      status := by rw [hstate]; rfl
      failure := hfailure
      failedStep := by rw [hstate]; rfl
      completedSteps := execute_completedSteps
      totalSteps := by rw [hstate]; rfl
      skipped := Stage.trail_skipped (s := s)
      states_length := Stage.trail_states_length (s := s)
      succeeded := fun i hi => Stage.trail_states_of_lt (s := s) hi
      failed := Stage.trail_states_of_error (s := s) hr he
      pending := fun i hi hafter => Stage.trail_states_of_gt (s := s) hi hafter
      log := Stage.trail_log_of_some (s := s) hr he }⟩

/-- A finished run has one of two shapes, and its log agrees with its steps and their states. -/
theorem execute_final_state (invoke : Invoker) (clock : Clock) (id : Uuid) (p : Pipeline)
    (context : Context) :
    let o := (execute invoke clock id p context).outcome
    (o.Completed p ∨ ∃ x, o.HaltedBy p x) ∧ ¬ (o.Completed p ∧ ∃ x, o.HaltedBy p x) ∧
      o.LogAgrees p := by
  intro o
  refine ⟨?_, ?_, execute_logAgrees⟩
  · cases h : p.steps[(Stage.initial context).halt invoke p.steps]? with
    | none => exact Or.inl (execute_completed h)
    | some step => exact Or.inr (execute_halted h)
  · rintro ⟨hc, x, hx⟩
    have := hc.failure.symm.trans hx.failure
    cases this

end

end PipelineRunner
